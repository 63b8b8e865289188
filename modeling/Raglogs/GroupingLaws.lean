import Raglogs.Grouping

/-!
The aggregation and the row scan build the same clusters. Both are described
group by group: the rows of one fingerprint are counted, tallied by service and by
level, and their messages and times collected. The four queries give the same
tallies whatever order their results come back in.
-/

namespace Raglogs.GroupingLaws

open Collections Dicts LogEntries Text Clusters Grouping

/-! The rows of one fingerprint. -/

def rowsOf (rows : List ClusterRow) (fp : String) : List ClusterRow :=
  rows.filter (fun r => r.fingerprint = fp)

/-- The non-empty values of a column, of the rows that pass a test. -/
def valuesOf (column : ClusterRow → Option String) (test : ClusterRow → Bool)
    (rows : List ClusterRow) : List String :=
  rows.filterMap (fun r => (truthy (column r)).filter (fun _ => test r))

def isErrorRow (lowering : Lowering) (r : ClusterRow) : Bool :=
  r.level.any (isErrorLevel lowering)

theorem isErrorLevel_empty (lowering : Lowering) : isErrorLevel lowering "" = false := by
  simp [isErrorLevel, errorLevels, lowering.lower_empty]

theorem truthy_level_any (lowering : Lowering) (level : Option String) :
    (truthy level).any (isErrorLevel lowering) = level.any (isErrorLevel lowering) := by
  cases level with
  | none => rfl
  | some s =>
    by_cases hs : s = ""
    · simp [truthy, hs, isErrorLevel_empty]
    · simp [truthy, hs]

theorem valuesOf_append_singleton (column : ClusterRow → Option String)
    (test : ClusterRow → Bool) (rows : List ClusterRow) (r : ClusterRow) :
    valuesOf column test (rows ++ [r]) =
      valuesOf column test rows ++ ((truthy (column r)).filter (fun _ => test r)).toList := by
  unfold valuesOf
  rw [List.filterMap_append]
  cases h : (truthy (column r)).filter (fun _ => test r) <;> simp [h]

/-! The row scan. -/

theorem tally_append_singleton (l : List String) (k : String) :
    tally (l ++ [k]) = bump (tally l) k 1 := by
  simp [tally, bumpAll_append, bumpAll_cons]

theorem bumpTruthy_tally (l : List String) (s : Option String) :
    bumpTruthy (tally l) s = tally (l ++ ((truthy s).filter (fun _ => true)).toList) := by
  unfold bumpTruthy
  cases truthy s with
  | none => simp
  | some k => simp [tally_append_singleton, Option.filter]

/-- A problem line counts for its service when it has a service and a level. -/
theorem bumpError_tally (lowering : Lowering) (l : List String) (r : ClusterRow) :
    bumpError lowering (tally l) r =
      tally (l ++ ((truthy r.service).filter (fun _ => isErrorRow lowering r)).toList) := by
  have hlevel := truthy_level_any lowering r.level
  unfold bumpError isErrorRow
  rw [← hlevel]
  cases truthy r.service with
  | none => simp
  | some service =>
    cases truthy r.level with
    | none => simp [Option.filter]
    | some level =>
      by_cases he : isErrorLevel lowering level = true
      · simp [he, tally_append_singleton, Option.filter]
      · simp [he, Option.filter]

/-- The group that the row scan has built from the rows of one fingerprint. -/
theorem foldl_addRow (lowering : Lowering) (rows : List ClusterRow) :
    rows.foldl (addRow lowering) emptyGroup =
      { messages := valuesOf ClusterRow.normalizedMessage (fun _ => true) rows
        services := tally (valuesOf ClusterRow.service (fun _ => true) rows)
        levels := tally (valuesOf ClusterRow.level (fun _ => true) rows)
        levelOrder := fromKeys (valuesOf ClusterRow.level (fun _ => true) rows)
        errorServices := tally (valuesOf ClusterRow.service (isErrorRow lowering) rows)
        timestamps := rows.filterMap ClusterRow.timestamp
        ids := rows.map ClusterRow.id
        count := none } := by
  induction rows using List.reverseRecOn with
  | nil => rfl
  | append_singleton rows r ih =>
    rw [List.foldl_append, List.foldl_cons, List.foldl_nil, ih]
    simp only [addRow, valuesOf_append_singleton, bumpTruthy_tally, bumpError_tally,
      List.map_append, List.map_cons, List.map_nil, RowGroup.mk.injEq, and_true, true_and]
    refine ⟨?_, ?_, ?_⟩
    · cases truthy r.normalizedMessage <;> simp [Option.filter]
    · cases truthy r.level with
      | none => simp [Option.filter]
      | some level => exact (fromKeys_append_singleton _ level).symm
    · rw [List.filterMap_append]
      cases ht : r.timestamp <;> simp [ht]

theorem lookup_groupRows (lowering : Lowering) (rows : List ClusterRow) (fp : String) :
    (groupRows lowering rows).lookup fp =
      if rowsOf rows fp = [] then none
      else some ((rowsOf rows fp).foldl (addRow lowering) emptyGroup) := by
  unfold groupRows
  rw [lookup_accumulate]
  simp [rowsOf]

/-! The counts of a query. -/

/-- A group of a query counts one value of a column among the rows of one fingerprint. -/
theorem length_group (column : ClusterRow → Option String) (test : ClusterRow → Bool)
    (rows : List ClusterRow) (fp v : String) :
    (((withColumn column rows).filter (fun p => (p.1.fingerprint, p.2) = (fp, v))).filter
      (fun p => test p.1)).length = (valuesOf column test (rowsOf rows fp)).count v := by
  induction rows with
  | nil => rfl
  | cons r rows ih =>
    unfold withColumn valuesOf rowsOf at ih ⊢
    cases ht : truthy (column r) with
    | none =>
      by_cases hf : r.fingerprint = fp <;>
        simpa [List.filterMap_cons, ht, List.filter_cons, hf] using ih
    | some w =>
      by_cases hf : r.fingerprint = fp
      · by_cases hw : w = v
        · by_cases hq : test r = true <;>
            simpa [List.filterMap_cons, ht, List.filter_cons, hf, hw, hq] using ih
        · by_cases hq : test r = true <;>
            simpa [List.filterMap_cons, ht, List.filter_cons, hf, hw, hq, List.count_cons] using ih
      · simpa [List.filterMap_cons, ht, List.filter_cons, hf] using ih

theorem length_group_all (column : ClusterRow → Option String) (rows : List ClusterRow)
    (fp v : String) :
    ((withColumn column rows).filter (fun p => (p.1.fingerprint, p.2) = (fp, v))).length =
      (valuesOf column (fun _ => true) (rowsOf rows fp)).count v := by
  rw [← length_group column (fun _ => true)]
  simp

/-- The groups of a column: one for each value that occurs, with its rows. -/
theorem mem_column_groups (column : ClusterRow → Option String) (rows : List ClusterRow)
    (fp v : String) (g : List (ClusterRow × String)) :
    ((fp, v), g) ∈ groupOn (fun p => (p.1.fingerprint, p.2)) (withColumn column rows) ↔
      v ∈ valuesOf column (fun _ => true) (rowsOf rows fp) ∧
        g = (withColumn column rows).filter (fun p => (p.1.fingerprint, p.2) = (fp, v)) := by
  have hne : (withColumn column rows).filter (fun p => (p.1.fingerprint, p.2) = (fp, v)) ≠ [] ↔
      v ∈ valuesOf column (fun _ => true) (rowsOf rows fp) := by
    rw [← List.length_pos_iff, length_group_all, List.count_pos_iff]
  rw [mem_groupOn, ← hne]
  constructor
  · rintro ⟨rfl, hg⟩
    exact ⟨hg, rfl⟩
  · rintro ⟨hg, rfl⟩
    exact ⟨rfl, hg⟩

theorem mem_queryServices {lowering : Lowering} {order : ResultOrder} {rows : List ClusterRow}
    {fp v : String} {n e : ℕ} :
    (fp, v, n, e) ∈ queryServices lowering order rows ↔
      v ∈ valuesOf ClusterRow.service (fun _ => true) (rowsOf rows fp) ∧
      n = (valuesOf ClusterRow.service (fun _ => true) (rowsOf rows fp)).count v ∧
      e = (valuesOf ClusterRow.service (isErrorRow lowering) (rowsOf rows fp)).count v := by
  unfold queryServices
  rw [(order.services.2 _).mem_iff, List.mem_map]
  constructor
  · rintro ⟨⟨⟨fp', v'⟩, g⟩, hg, heq⟩
    obtain ⟨rfl, rfl, rfl, rfl⟩ := by simpa only [Prod.mk.injEq] using heq
    obtain ⟨hv, rfl⟩ := (mem_column_groups _ _ _ _ _).mp hg
    exact ⟨hv, length_group_all _ _ _ _, length_group _ (isErrorRow lowering) _ _ _⟩
  · rintro ⟨hv, rfl, rfl⟩
    refine ⟨((fp, v), _), (mem_column_groups _ _ _ _ _).mpr ⟨hv, rfl⟩, ?_⟩
    rw [Prod.mk.injEq, Prod.mk.injEq, Prod.mk.injEq]
    exact ⟨rfl, rfl, length_group_all _ _ _ _, length_group _ (isErrorRow lowering) _ _ _⟩

theorem mem_queryKeys (shuffle : Shuffle KeyRow) {column : ClusterRow → Option String}
    {rows : List ClusterRow} {fp v : String} {n : ℕ} :
    (fp, v, n) ∈ queryKeys shuffle column rows ↔
      v ∈ valuesOf column (fun _ => true) (rowsOf rows fp) ∧
      n = (valuesOf column (fun _ => true) (rowsOf rows fp)).count v := by
  unfold queryKeys
  rw [(shuffle.2 _).mem_iff, List.mem_map]
  constructor
  · rintro ⟨⟨⟨fp', v'⟩, g⟩, hg, heq⟩
    obtain ⟨rfl, rfl, rfl⟩ := by simpa only [Prod.mk.injEq] using heq
    obtain ⟨hv, rfl⟩ := (mem_column_groups _ _ _ _ _).mp hg
    exact ⟨hv, length_group_all _ _ _ _⟩
  · rintro ⟨hv, rfl⟩
    refine ⟨((fp, v), _), (mem_column_groups _ _ _ _ _).mpr ⟨hv, rfl⟩, ?_⟩
    rw [Prod.mk.injEq, Prod.mk.injEq]
    exact ⟨rfl, rfl, length_group_all _ _ _ _⟩

/-- Rows with distinct key pairs have, for one fingerprint, distinct second keys. -/
theorem nodup_of_pairs {γ : Type} {l : List (String × String × γ)}
    (h : (l.map (fun r => (r.1, r.2.1))).Nodup) (fp : String) :
    ((l.filter (fun r => r.1 = fp)).map (fun r => r.2.1)).Nodup := by
  refine List.Nodup.map_on ?_ ((h.of_map _).filter _)
  intro a ha b hb hab
  obtain ⟨ha, hafp⟩ := List.mem_filter.mp ha
  obtain ⟨hb, hbfp⟩ := List.mem_filter.mp hb
  rw [decide_eq_true_eq] at hafp hbfp
  exact List.inj_on_of_nodup_map h ha hb (by rw [hafp, hbfp, hab])

theorem queryServices_nodup (lowering : Lowering) (order : ResultOrder)
    (rows : List ClusterRow) (fp : String) :
    (((queryServices lowering order rows).filter (fun r => r.1 = fp)).map
      (fun r => r.2.1)).Nodup := by
  refine nodup_of_pairs ?_ fp
  unfold queryServices
  rw [((order.services.2 _).map _).nodup_iff, List.map_map]
  exact groupOn_keys_nodup _ _

theorem queryKeys_nodup (shuffle : Shuffle KeyRow) (column : ClusterRow → Option String)
    (rows : List ClusterRow) (fp : String) :
    (((queryKeys shuffle column rows).filter (fun r => r.1 = fp)).map (fun r => r.2.1)).Nodup := by
  refine nodup_of_pairs ?_ fp
  unfold queryKeys
  rw [((shuffle.2 _).map _).nodup_iff, List.map_map]
  exact groupOn_keys_nodup _ _

/-- The counts of a query's rows of one fingerprint are the tally of the column. -/
theorem dictOf_queryKeys (shuffle : Shuffle KeyRow) (column : ClusterRow → Option String)
    (rows : List ClusterRow) (fp : String) :
    dictOf (((queryKeys shuffle column rows).filter (fun r => r.1 = fp)).map Prod.snd) =
      tally (valuesOf column (fun _ => true) (rowsOf rows fp)) := by
  apply dictOf_eq_tally
  · rw [List.map_map]
    exact queryKeys_nodup shuffle column rows fp
  · intro v n
    rw [← mem_queryKeys shuffle, List.mem_map]
    constructor
    · rintro ⟨⟨fp', p⟩, hp, rfl⟩
      obtain ⟨hmem, hfp⟩ := List.mem_filter.mp hp
      rw [decide_eq_true_eq] at hfp
      exact hfp ▸ hmem
    · exact fun hmem => ⟨(fp, v, n), List.mem_filter.mpr ⟨hmem, by simp⟩, rfl⟩

theorem mem_serviceRows {lowering : Lowering} {order : ResultOrder} {rows : List ClusterRow}
    {fp : String} {r : ServiceRow} :
    r ∈ (queryServices lowering order rows).filter (fun r => r.1 = fp) ↔
      r.1 = fp ∧ r.2.1 ∈ valuesOf ClusterRow.service (fun _ => true) (rowsOf rows fp) ∧
      r.2.2.1 = (valuesOf ClusterRow.service (fun _ => true) (rowsOf rows fp)).count r.2.1 ∧
      r.2.2.2 =
        (valuesOf ClusterRow.service (isErrorRow lowering) (rowsOf rows fp)).count r.2.1 := by
  obtain ⟨fp', v, n, e⟩ := r
  rw [List.mem_filter, mem_queryServices, decide_eq_true_eq]
  constructor
  · rintro ⟨h, rfl⟩
    exact ⟨rfl, h⟩
  · rintro ⟨rfl, h⟩
    exact ⟨h, rfl⟩

/-- Every service of a fingerprint has its row. -/
theorem exists_serviceRow (lowering : Lowering) (order : ResultOrder) {rows : List ClusterRow}
    {fp v : String} (hv : v ∈ valuesOf ClusterRow.service (fun _ => true) (rowsOf rows fp)) :
    ∃ r ∈ (queryServices lowering order rows).filter (fun r => r.1 = fp), r.2.1 = v ∧
      r.2.2.1 = (valuesOf ClusterRow.service (fun _ => true) (rowsOf rows fp)).count v ∧
      r.2.2.2 = (valuesOf ClusterRow.service (isErrorRow lowering) (rowsOf rows fp)).count v := by
  let r : ServiceRow := (fp, v,
    (valuesOf ClusterRow.service (fun _ => true) (rowsOf rows fp)).count v,
    (valuesOf ClusterRow.service (isErrorRow lowering) (rowsOf rows fp)).count v)
  exact ⟨r, mem_serviceRows.mpr ⟨rfl, hv, rfl, rfl⟩, rfl, rfl, rfl⟩

theorem dictOf_serviceCounts (lowering : Lowering) (order : ResultOrder)
    (rows : List ClusterRow) (fp : String) :
    dictOf (((queryServices lowering order rows).filter (fun r => r.1 = fp)).map
        (fun r => (r.2.1, r.2.2.1))) =
      tally (valuesOf ClusterRow.service (fun _ => true) (rowsOf rows fp)) := by
  apply dictOf_eq_tally
  · rw [List.map_map]
    exact queryServices_nodup lowering order rows fp
  · intro v n
    rw [List.mem_map]
    constructor
    · rintro ⟨r, hr, heq⟩
      obtain ⟨rfl, rfl⟩ := Prod.mk.inj heq
      obtain ⟨-, hv, hn, -⟩ := mem_serviceRows.mp hr
      exact ⟨hv, hn⟩
    · rintro ⟨hv, rfl⟩
      obtain ⟨r, hr, rfl, hn, -⟩ := exists_serviceRow lowering order hv
      exact ⟨r, hr, by rw [hn]⟩

theorem dictOf_errorCounts (lowering : Lowering) (order : ResultOrder)
    (rows : List ClusterRow) (fp : String) :
    dictOf ((((queryServices lowering order rows).filter (fun r => r.1 = fp)).filter
        (fun r => r.2.2.2 ≠ 0)).map (fun r => (r.2.1, r.2.2.2))) =
      tally (valuesOf ClusterRow.service (isErrorRow lowering) (rowsOf rows fp)) := by
  apply dictOf_eq_tally
  · rw [List.map_map]
    exact (queryServices_nodup lowering order rows fp).sublist (List.filter_sublist.map _)
  · intro v n
    rw [List.mem_map]
    constructor
    · rintro ⟨r, hr, heq⟩
      obtain ⟨rfl, rfl⟩ := Prod.mk.inj heq
      obtain ⟨hr, hpos⟩ := List.mem_filter.mp hr
      obtain ⟨-, -, -, he⟩ := mem_serviceRows.mp hr
      rw [decide_eq_true_eq, he, ← Nat.pos_iff_ne_zero, List.count_pos_iff] at hpos
      exact ⟨hpos, he⟩
    · rintro ⟨hv, rfl⟩
      have hservice : v ∈ valuesOf ClusterRow.service (fun _ => true) (rowsOf rows fp) := by
        obtain ⟨r, hr, hrv⟩ := List.mem_filterMap.mp hv
        refine List.mem_filterMap.mpr ⟨r, hr, ?_⟩
        rw [Option.filter_eq_some_iff] at hrv ⊢
        exact ⟨hrv.1, rfl⟩
      obtain ⟨r, hr, rfl, -, he⟩ := exists_serviceRow lowering order hservice
      refine ⟨r, List.mem_filter.mpr ⟨hr, ?_⟩, by rw [he]⟩
      rw [decide_eq_true_eq, he, ← Nat.pos_iff_ne_zero, List.count_pos_iff]
      exact hv

/-! Folding a result into a group. -/

theorem foldl_setService (g : RowGroup) (l : List ServiceRow) :
    l.foldl setService g = { g with
      services := (l.map (fun r => (r.2.1, r.2.2.1))).foldl
        (fun d p => d.insert p.1 p.2) g.services
      errorServices := ((l.filter (fun r => r.2.2.2 ≠ 0)).map (fun r => (r.2.1, r.2.2.2))).foldl
        (fun d p => d.insert p.1 p.2) g.errorServices } := by
  induction l generalizing g with
  | nil => rfl
  | cons r l ih =>
    rw [List.foldl_cons, ih]
    by_cases he : r.2.2.2 = 0 <;> simp [setService, he]

theorem foldl_setLevel (g : RowGroup) (l : List KeyRow) :
    l.foldl setLevel g = { g with
      levels := (l.map Prod.snd).foldl (fun d p => d.insert p.1 p.2) g.levels
      levelOrder := (l.map fun r => r.2.1).foldl enterKey g.levelOrder } := by
  induction l generalizing g with
  | nil => rfl
  | cons r l ih =>
    rw [List.foldl_cons, ih]
    simp [setLevel]

/-- Folding a result into the groups changes the group of each row's fingerprint. -/
theorem lookup_accumulate_of_some {α ν : Type} {key : α → String} {init g : ν}
    {update : ν → α → ν} {d : Dict String ν} {l : List α} {k : String}
    (h : d.lookup k = some g) :
    (accumulate key init update d l).lookup k =
      some ((l.filter (fun a => key a = k)).foldl update g) := by
  rw [lookup_accumulate, h, Option.getD_some]
  split
  · rename_i hnil
    rw [hnil, List.foldl_nil]
  · rfl

theorem lookup_accumulate_of_none {α ν : Type} {key : α → String} {init : ν}
    {update : ν → α → ν} {d : Dict String ν} {l : List α} {k : String}
    (h : d.lookup k = none) (hl : l.filter (fun a => key a = k) = []) :
    (accumulate key init update d l).lookup k = none := by
  rw [lookup_accumulate, if_pos hl, h]

/-- The row of the first query for a fingerprint that occurs. -/
theorem filter_queryCounts (order : ResultOrder) (rows : List ClusterRow) (fp : String) :
    (queryCounts order rows).filter (fun r => r.1 = fp) =
      if rowsOf rows fp = [] then []
      else [(fp, (rowsOf rows fp).length, ((rowsOf rows fp).filterMap ClusterRow.timestamp).min?,
        ((rowsOf rows fp).filterMap ClusterRow.timestamp).max?,
        (order.members.1 ((rowsOf rows fp).map ClusterRow.id)).take maxClusterMembers)] := by
  have hperm := (order.counts.2 ((groupOn ClusterRow.fingerprint rows).map (fun p =>
    (p.1, p.2.length, (p.2.filterMap ClusterRow.timestamp).min?,
      (p.2.filterMap ClusterRow.timestamp).max?,
      (order.members.1 (p.2.map ClusterRow.id)).take maxClusterMembers)))).filter
    (fun r => r.1 = fp)
  rw [List.filter_map] at hperm
  have hgroup := filter_groupOn ClusterRow.fingerprint rows fp
  unfold rowsOf queryCounts
  simp only [Function.comp_def] at hperm
  rw [hgroup] at hperm
  split
  · rename_i hnil
    rw [if_pos hnil, List.map_nil] at hperm
    exact hperm.eq_nil
  · rename_i hne
    rw [if_neg hne, List.map_cons, List.map_nil] at hperm
    exact List.perm_singleton.mp hperm

/-! The representative message. -/

/-- The non-empty messages of the rows agree. -/
def OneMessage (rows : List ClusterRow) : Prop :=
  ∀ a ∈ rows, ∀ b ∈ rows, ∀ m n, truthy a.normalizedMessage = some m →
    truthy b.normalizedMessage = some n → m = n

theorem OneMessage.values_eq {rows : List ClusterRow} (h : OneMessage rows) {m n : String}
    (hm : m ∈ valuesOf ClusterRow.normalizedMessage (fun _ => true) rows)
    (hn : n ∈ valuesOf ClusterRow.normalizedMessage (fun _ => true) rows) : m = n := by
  obtain ⟨a, ha, ham⟩ := List.mem_filterMap.mp hm
  obtain ⟨b, hb, hbn⟩ := List.mem_filterMap.mp hn
  exact h a ha b hb m n (Option.filter_eq_some_iff.mp ham).1 (Option.filter_eq_some_iff.mp hbn).1

/-- The most common of equal messages is the first one. -/
theorem mostCommon_of_forall_eq {l : List String} (h : ∀ a ∈ l, ∀ b ∈ l, a = b) :
    mostCommon l = l.head? := by
  cases l with
  | nil => rfl
  | cons m l =>
    have hgroup : groupOn id (m :: l) = [(m, m :: l)] :=
      groupOn_of_forall_eq (by simp) (fun a ha => h a ha m List.mem_cons_self)
    simp [mostCommon, hgroup]

/-- One message for a fingerprint: the query has one row for it, or none. -/
theorem filter_messages (order : ResultOrder) {rows : List ClusterRow} {fp : String}
    (h : OneMessage (rowsOf rows fp)) :
    (queryKeys order.messages ClusterRow.normalizedMessage rows).filter (fun r => r.1 = fp) =
      (valuesOf ClusterRow.normalizedMessage (fun _ => true) (rowsOf rows fp)).head?.toList.map
        (fun m => (fp, m,
          (valuesOf ClusterRow.normalizedMessage (fun _ => true) (rowsOf rows fp)).count m)) := by
  set values := valuesOf ClusterRow.normalizedMessage (fun _ => true) (rowsOf rows fp) with hvalues
  set found := (queryKeys order.messages ClusterRow.normalizedMessage rows).filter
    (fun r => r.1 = fp) with hfound
  have hmem : ∀ r, r ∈ found ↔ r.1 = fp ∧ r.2.1 ∈ values ∧ r.2.2 = values.count r.2.1 := by
    rintro ⟨fp', v, n⟩
    rw [hfound, List.mem_filter, mem_queryKeys _, decide_eq_true_eq]
    constructor
    · rintro ⟨hv, rfl⟩
      exact ⟨rfl, hv⟩
    · rintro ⟨rfl, hv⟩
      exact ⟨hv, rfl⟩
  have hnd : found.Nodup := (queryKeys_nodup order.messages _ rows fp).of_map _
  cases hv : values.head? with
  | none =>
    rw [List.head?_eq_none_iff] at hv
    rw [Option.toList_none, List.map_nil, List.eq_nil_iff_forall_not_mem]
    intro r hr
    have hno := ((hmem r).mp hr).2.1
    simp [hv] at hno
  | some m =>
    have hm : m ∈ values := List.mem_of_head? hv
    rw [Option.toList_some, List.map_cons, List.map_nil]
    apply List.perm_singleton.mp
    rw [List.perm_ext_iff_of_nodup hnd (List.nodup_singleton _)]
    rintro ⟨fp', v, n⟩
    rw [hmem, List.mem_singleton]
    simp only [Prod.mk.injEq]
    constructor
    · rintro ⟨hfp, hv', hn⟩
      obtain rfl : v = m := h.values_eq hv' hm
      exact ⟨hfp, rfl, hn⟩
    · rintro ⟨hfp, rfl, hn⟩
      exact ⟨hfp, hm, hn⟩

/-- The best messages listed for a fingerprint. -/
theorem filter_bestMessages (order : ResultOrder) {rows : List ClusterRow} {fp : String}
    (h : OneMessage (rowsOf rows fp)) :
    (((fromKeys ((queryKeys order.messages ClusterRow.normalizedMessage rows).map Prod.fst)).map
      (fun fp => (fp, ((bestMessages
        (queryKeys order.messages ClusterRow.normalizedMessage rows)).lookup fp).getD none))).filter
      (fun r => r.1 = fp)).map (fun r => (r.2.map Prod.snd).toList) =
      (valuesOf ClusterRow.normalizedMessage (fun _ => true) (rowsOf rows fp)).head?.toList.map
        (fun m => [m]) := by
  set found := queryKeys order.messages ClusterRow.normalizedMessage rows with hfound
  have hrows := filter_messages order h
  rw [← hfound] at hrows
  rw [List.filter_map, List.map_map]
  have hkeys : (fromKeys (found.map Prod.fst)).filter
      ((fun r : String × Option (ℕ × String) => decide (r.1 = fp)) ∘
        fun fp => (fp, ((bestMessages found).lookup fp).getD none)) =
      if fp ∈ found.map Prod.fst then [fp] else [] := by
    have hnd := fromKeys_nodup (found.map Prod.fst)
    split
    · rename_i hmem
      apply List.perm_singleton.mp
      rw [List.perm_ext_iff_of_nodup (hnd.filter _) (List.nodup_singleton _)]
      intro k
      simp only [List.mem_filter, mem_fromKeys, Function.comp_apply, decide_eq_true_eq,
        List.mem_singleton]
      constructor
      · exact And.right
      · rintro rfl
        exact ⟨hmem, rfl⟩
    · rename_i hmem
      rw [List.eq_nil_iff_forall_not_mem]
      intro k hk
      simp only [List.mem_filter, mem_fromKeys, Function.comp_apply, decide_eq_true_eq] at hk
      exact hmem (hk.2 ▸ hk.1)
  rw [hkeys]
  have hmem : fp ∈ found.map Prod.fst ↔ found.filter (fun r => r.1 = fp) ≠ [] := by
    rw [ne_eq, List.filter_eq_nil_iff, List.mem_map]
    simp
  have hbest : (bestMessages found).lookup fp =
      if found.filter (fun r => r.1 = fp) = [] then none
      else some ((found.filter (fun r => r.1 = fp)).foldl keepBest none) := by
    unfold bestMessages
    rw [lookup_accumulate]
    simp
  rw [hrows] at hmem hbest
  cases hv : (valuesOf ClusterRow.normalizedMessage (fun _ => true) (rowsOf rows fp)).head? with
  | none =>
    rw [hv] at hmem
    simp only [Option.toList_none, List.map_nil, ne_eq, not_true_eq_false, iff_false] at hmem
    rw [if_neg hmem]
    simp
  | some m =>
    rw [hv] at hmem hbest
    have hfp : fp ∈ found.map Prod.fst := hmem.mpr (by simp)
    rw [if_pos hfp]
    simp [hbest, keepBest]

theorem foldl_setMessage (g : RowGroup) (l : List (String × Option (ℕ × String))) :
    l.foldl setMessage g =
      (l.map (fun r => (r.2.map Prod.snd).toList)).foldl
        (fun g messages => { g with messages := messages }) g := by
  rw [List.foldl_map]
  rfl

/-! The aggregated groups. -/

/-- The levels of a fingerprint, in the order in which the query returns them. -/
def levelsFound (order : ResultOrder) (rows : List ClusterRow) (fp : String) : List String :=
  fromKeys (((queryKeys order.levels ClusterRow.level rows).filter (fun r => r.1 = fp)).map
    (fun r => r.2.1))

/-- They are the levels that occur, in some order. -/
theorem levelsFound_perm (order : ResultOrder) (rows : List ClusterRow) (fp : String) :
    (levelsFound order rows fp).Perm
      (fromKeys (valuesOf ClusterRow.level (fun _ => true) (rowsOf rows fp))) := by
  rw [levelsFound, List.perm_ext_iff_of_nodup (fromKeys_nodup _) (fromKeys_nodup _)]
  intro v
  rw [mem_fromKeys, mem_fromKeys, List.mem_map]
  constructor
  · rintro ⟨⟨fp', v', n⟩, hr, rfl⟩
    obtain ⟨hmem, hfp⟩ := List.mem_filter.mp hr
    rw [decide_eq_true_eq] at hfp
    obtain rfl : fp' = fp := hfp
    exact ((mem_queryKeys order.levels).mp hmem).1
  · intro hv
    exact ⟨(fp, v, _), List.mem_filter.mpr
      ⟨(mem_queryKeys order.levels).mpr ⟨hv, rfl⟩, by simp⟩, rfl⟩

/-- The group that the aggregation builds from the rows of one fingerprint. -/
def aggregated (lowering : Lowering) (order : ResultOrder) (levelOrder : List String)
    (rows : List ClusterRow) : RowGroup where
  messages := (valuesOf ClusterRow.normalizedMessage (fun _ => true) rows).head?.toList
  services := tally (valuesOf ClusterRow.service (fun _ => true) rows)
  levels := tally (valuesOf ClusterRow.level (fun _ => true) rows)
  levelOrder := levelOrder
  errorServices := tally (valuesOf ClusterRow.service (isErrorRow lowering) rows)
  timestamps := (rows.filterMap ClusterRow.timestamp).min?.toList ++
    (rows.filterMap ClusterRow.timestamp).max?.toList
  ids := (order.members.1 (rows.map ClusterRow.id)).take maxClusterMembers
  count := some rows.length

theorem lookup_aggregateGroups (lowering : Lowering) (order : ResultOrder) (store : LogStore)
    (f : WindowFilter) (fp : String) (h : OneMessage (rowsOf (clusterSelect store f) fp)) :
    (aggregateGroups lowering order store f).lookup fp =
      if rowsOf (clusterSelect store f) fp = [] then none
      else some (aggregated lowering order (levelsFound order (clusterSelect store f) fp)
        (rowsOf (clusterSelect store f) fp)) := by
  set rows := clusterSelect store f with hrows
  have hcounts := filter_queryCounts order rows fp
  have hmessages := filter_bestMessages order h
  unfold aggregateGroups
  simp only [← hrows]
  by_cases hnil : rowsOf rows fp = []
  · rw [if_pos hnil] at hcounts ⊢
    rw [hnil] at hmessages
    have hkeys : ∀ (shuffle : Shuffle KeyRow) (column : ClusterRow → Option String),
        (queryKeys shuffle column rows).filter (fun r => r.1 = fp) = [] := by
      intro shuffle column
      rw [List.eq_nil_iff_forall_not_mem]
      rintro ⟨fp', v, n⟩ hr
      obtain ⟨hmem, hfp⟩ := List.mem_filter.mp hr
      obtain rfl : fp' = fp := by simpa using hfp
      have hv := ((mem_queryKeys _).mp hmem).1
      rw [hnil] at hv
      simp [valuesOf] at hv
    have hservices : (queryServices lowering order rows).filter (fun r => r.1 = fp) = [] := by
      rw [List.eq_nil_iff_forall_not_mem]
      intro r hr
      have hv := (mem_serviceRows.mp hr).2.1
      rw [hnil] at hv
      simp [valuesOf] at hv
    refine lookup_accumulate_of_none (lookup_accumulate_of_none (lookup_accumulate_of_none
      (lookup_accumulate_of_none (Finmap.lookup_empty fp) hcounts) hservices) (hkeys _ _)) ?_
    simpa [valuesOf] using hmessages
  · rw [if_neg hnil] at hcounts ⊢
    have hcounted : (accumulate Prod.fst openGroup setCount ∅ (queryCounts order rows)).lookup fp =
        some (setCount openGroup (fp, (rowsOf rows fp).length,
          ((rowsOf rows fp).filterMap ClusterRow.timestamp).min?,
          ((rowsOf rows fp).filterMap ClusterRow.timestamp).max?,
          (order.members.1 ((rowsOf rows fp).map ClusterRow.id)).take maxClusterMembers)) := by
      rw [lookup_accumulate, hcounts]
      simp
    rw [lookup_accumulate_of_some (lookup_accumulate_of_some (lookup_accumulate_of_some hcounted)),
      foldl_setService, foldl_setLevel, foldl_setMessage, hmessages]
    have hservices := dictOf_serviceCounts lowering order rows fp
    have herrors := dictOf_errorCounts lowering order rows fp
    have hlevels := dictOf_queryKeys order.levels ClusterRow.level rows fp
    unfold dictOf at hservices herrors hlevels
    simp only [setCount, openGroup, emptyGroup, hservices, herrors, hlevels, aggregated]
    cases (valuesOf ClusterRow.normalizedMessage (fun _ => true) (rowsOf rows fp)).head? <;> rfl

/-! The clusters. -/

variable {K : Type} [ScoreArithmetic K]

/-- The clusters agree, their importance is computed from the same shares in the order of
their levels, and the sample of the first is drawn from the ids of the second. -/
structure AgreeUpToSample (s : Scoring K) (c c' : ClusterData K) : Prop where
  fields_eq : { c with
    logEntryIds := c'.logEntryIds
    levelOrder := c'.levelOrder
    importanceScore := c'.importanceScore } = c'
  levels_perm : c.levelOrder.Perm c'.levelOrder
  importance_eq : c.importanceScore = s.importanceOf c
  importance_eq' : c'.importanceScore = s.importanceOf c'
  importance_settled : SumSettled s c' → c.importanceScore = c'.importanceScore
  sample_nodup : c.logEntryIds.Nodup
  sample_le : c.logEntryIds.Subperm c'.logEntryIds
  sample_length : c.logEntryIds.length = min maxClusterMembers c.count

/-- Least and greatest time, once from all times and once from those two. -/
theorem ends_of_min_max (times : List Timestamp) :
    (sortOn id (times.min?.toList ++ times.max?.toList)).head? = (sortOn id times).head? ∧
      (sortOn id (times.min?.toList ++ times.max?.toList)).getLast? =
        (sortOn id times).getLast? := by
  rw [head?_sortOn_id, head?_sortOn_id, getLast?_sortOn_id, getLast?_sortOn_id]
  cases hmin : times.min? with
  | none =>
    rw [List.min?_eq_none_iff] at hmin
    simp [hmin]
  | some a =>
    cases hmax : times.max? with
    | none =>
      rw [List.max?_eq_none_iff] at hmax
      simp [hmax] at hmin
    | some b =>
      obtain ⟨ha, hle⟩ := List.min?_eq_some_iff.mp hmin
      obtain ⟨hb, hge⟩ := List.max?_eq_some_iff.mp hmax
      have hab : a ≤ b := hle b hb
      simp [List.min?, List.max?, hab]

theorem buildClusterData_agree (s : Scoring K) (lowering : Lowering) (order : ResultOrder)
    {rows : List ClusterRow} {levelOrder : List String}
    (hlevels : levelOrder.Perm (fromKeys (valuesOf ClusterRow.level (fun _ => true) rows)))
    (hmessage : OneMessage rows)
    (hids : (rows.map ClusterRow.id).Nodup) (fp : String) (baselineCounts : Counter String) :
    AgreeUpToSample s
      (buildClusterData s fp (aggregated lowering order levelOrder rows) baselineCounts)
      (buildClusterData s fp (rows.foldl (addRow lowering) emptyGroup) baselineCounts) := by
  rw [foldl_addRow]
  have hcommon := mostCommon_of_forall_eq (fun _ ha _ hb => hmessage.values_eq ha hb)
  have hcommon' : mostCommon (valuesOf ClusterRow.normalizedMessage
      (fun _ => true) rows).head?.toList =
      (valuesOf ClusterRow.normalizedMessage (fun _ => true) rows).head? := by
    cases hv : (valuesOf ClusterRow.normalizedMessage (fun _ => true) rows).head? with
    | none => rfl
    | some m => exact mostCommon_of_forall_eq (by simp)
  obtain ⟨hfirst, hlast⟩ := ends_of_min_max (rows.filterMap ClusterRow.timestamp)
  have hperm := order.members.2 (rows.map ClusterRow.id)
  refine ⟨?_, hlevels, rfl, rfl, fun hsettled => ?_, ?_, ?_, ?_⟩
  · simp only [buildClusterData, aggregated, hcommon, hcommon', hfirst, hlast,
      Option.getD_some, Option.getD_none, List.length_map]
  · have hseverity := hsettled levelOrder hlevels
    simp only [buildClusterData] at hseverity
    simp only [buildClusterData, aggregated, hcommon, hcommon', Option.getD_some,
      Option.getD_none, List.length_map, Scoring.computeImportanceScore, hseverity]
  · exact (hperm.nodup_iff.mpr hids).sublist (List.take_sublist _ _)
  · exact (List.take_sublist _ _).subperm.trans hperm.subperm
  · simp only [buildClusterData, aggregated, Option.getD_some, List.length_take,
      hperm.length_eq, List.length_map]

/-- The rows of a fingerprint, stored: the non-empty messages of equal fingerprints agree. -/
def OneMessageStored (store : LogStore) : Prop :=
  ∀ a ∈ store.entries, ∀ b ∈ store.entries, a.fingerprint = b.fingerprint →
    ∀ m n, truthy a.normalizedMessage = some m → truthy b.normalizedMessage = some n → m = n

theorem mem_clusterSelect {store : LogStore} {f : WindowFilter} {r : ClusterRow} :
    r ∈ clusterSelect store f ↔
      ∃ e ∈ store.entries, f.accepts e = true ∧ project e = some r := by
  unfold clusterSelect LogStore.baseWindowQuery
  simp only [List.mem_filterMap, List.mem_filter, and_assoc]

theorem oneMessage_rowsOf {store : LogStore} (h : OneMessageStored store) (f : WindowFilter)
    (fp : String) : OneMessage (rowsOf (clusterSelect store f) fp) := by
  intro a ha b hb m n hm hn
  obtain ⟨ha, hafp⟩ := List.mem_filter.mp ha
  obtain ⟨hb, hbfp⟩ := List.mem_filter.mp hb
  obtain ⟨e, he, -, hea⟩ := mem_clusterSelect.mp ha
  obtain ⟨e', he', -, heb⟩ := mem_clusterSelect.mp hb
  obtain ⟨fa, hfa, rfl⟩ := Option.map_eq_some_iff.mp hea
  obtain ⟨fb, hfb, rfl⟩ := Option.map_eq_some_iff.mp heb
  simp only [decide_eq_true_eq] at hafp hbfp
  exact h e he e' he' (by rw [hfa, hfb, hafp, hbfp]) m n hm hn

/-- The projection keeps the identifiers of the rows it keeps. -/
theorem clusterSelect_ids_nodup (store : LogStore) (f : WindowFilter) :
    ((clusterSelect store f).map ClusterRow.id).Nodup := by
  refine store.ids_nodup.sublist ?_
  have hproject : ∀ l : List LogEntry,
      ((l.filterMap project).map ClusterRow.id).Sublist (l.map LogEntry.id) := by
    intro l
    induction l with
    | nil => simp
    | cons e l ih =>
      cases hp : project e with
      | none => simpa [List.filterMap_cons, hp] using ih.cons e.id
      | some r =>
        obtain ⟨fp, -, rfl⟩ := Option.map_eq_some_iff.mp hp
        simpa [List.filterMap_cons, hp] using ih.cons_cons e.id
  exact (hproject _).trans (List.filter_sublist.map _)

/-- The cluster that a dict of groups holds for a fingerprint. -/
def clusterOf (s : Scoring K) (baselineCounts : Counter String) (groups : Dict String RowGroup)
    (fp : String) : Option (ClusterData K) :=
  (groups.lookup fp).map (fun g => buildClusterData s fp g baselineCounts)

/-- The aggregation and the row scan give the same fingerprints, and clusters that
agree in every field but the sample of ids and the rounding of the importance. -/
theorem aggregation_eq_row_grouping (s : Scoring K) (order : ResultOrder) (store : LogStore)
    (f : WindowFilter) (baselineCounts : Counter String) (h : OneMessageStored store)
    (fp : String) :
    Option.Rel (AgreeUpToSample s)
      (clusterOf s baselineCounts (aggregateGroups s.lowering order store f) fp)
      (clusterOf s baselineCounts (groupRows s.lowering (clusterSelect store f)) fp) := by
  have hmessage := oneMessage_rowsOf h f fp
  unfold clusterOf
  rw [lookup_aggregateGroups s.lowering order store f fp hmessage, lookup_groupRows]
  split
  · exact Option.Rel.none
  · refine Option.Rel.some ?_
    exact buildClusterData_agree s s.lowering order (levelsFound_perm order _ fp) hmessage
      ((clusterSelect_ids_nodup store f).sublist (List.filter_sublist.map _)) fp baselineCounts

/-- A line of one service, at one instant, with a message and a level. -/
def sampleEntry (id : EntryId) (message level : String) : LogEntry where
  id := id
  ingestionJobId := none
  timestamp := some 10
  service := some "checkout"
  environment := none
  level := some level
  traceId := none
  requestId := none
  host := none
  rawMessage := none
  normalizedMessage := some message
  fingerprint := some "f1"
  parserType := none
  extraJson := none
  sourceAdapter := "file"
  sourceRef := none
  originalLineHash := none
  scope := "default"

def sampleStore : LogStore where
  entries := [sampleEntry 1 "timeout" "ERROR", sampleEntry 2 "" "info"]
  ids_nodup := by simp [sampleEntry]

def sampleFilter : WindowFilter := ⟨0, 20, "default", none, none, none⟩

/-- Every result in the order in which the engine happened to build it. -/
def buildOrder : ResultOrder where
  counts := ⟨id, fun _ => List.Perm.refl _⟩
  services := ⟨id, fun _ => List.Perm.refl _⟩
  levels := ⟨id, fun _ => List.Perm.refl _⟩
  messages := ⟨id, fun _ => List.Perm.refl _⟩
  members := ⟨List.reverse, List.reverse_perm⟩

/-- Two rows of one fingerprint, one of them without a message. -/
theorem aggregation_eq_row_grouping_sample :
    Option.Rel (AgreeUpToSample defaultScoring)
      (clusterOf defaultScoring ∅
        (aggregateGroups defaultScoring.lowering buildOrder sampleStore sampleFilter) "f1")
      (clusterOf defaultScoring ∅
        (groupRows defaultScoring.lowering (clusterSelect sampleStore sampleFilter)) "f1") := by
  refine aggregation_eq_row_grouping defaultScoring buildOrder sampleStore sampleFilter ∅ ?_ "f1"
  intro a ha b hb _ m n hm hn
  simp only [sampleStore, List.mem_cons, List.not_mem_nil, or_false] at ha hb
  rcases ha with rfl | rfl <;> rcases hb with rfl | rfl <;>
    simp_all [sampleEntry, truthy, Option.filter]

/-! Shares in two orders. -/

/-- Five lines of three levels. -/
def fiveLines : LogStore where
  entries := [sampleEntry 1 "timeout" "error", sampleEntry 2 "timeout" "error",
    sampleEntry 3 "timeout" "warn", sampleEntry 4 "timeout" "warn", sampleEntry 5 "timeout" "info"]
  ids_nodup := by simp [sampleEntry]

/-- The levels come back in the reversed order. -/
def levelsReversed : ResultOrder := { buildOrder with levels := ⟨List.reverse, List.reverse_perm⟩ }

/-- The row scan adds 1.6, 1.2 and 0.2, the aggregation 0.2, 1.2 and 1.6, and the importance
differs in the last place. -/
theorem importance_rounded_by_order :
    OneMessageStored fiveLines ∧
    (clusterOf doubleScoring ∅ (groupRows doubleScoring.lowering
      (clusterSelect fiveLines sampleFilter)) "f1").map ClusterData.importanceScore =
        some (Double.round 7.0842432085633416) ∧
    (clusterOf doubleScoring ∅ (aggregateGroups doubleScoring.lowering levelsReversed fiveLines
      sampleFilter) "f1").map ClusterData.importanceScore =
        some (Double.round 7.084243208563341) ∧
    Double.round 7.0842432085633416 ≠ Double.round 7.084243208563341 := by
  have hmessage : ∀ e ∈ fiveLines.entries, truthy e.normalizedMessage = some "timeout" := by
    decide
  refine ⟨fun a ha b hb _ m n hm hn => ?_, ?_, ?_, ?_⟩
  · rw [hmessage a ha, Option.some_inj] at hm
    rw [hmessage b hb, Option.some_inj] at hn
    exact hm.symm.trans hn
  · decide +kernel
  · decide +kernel
  · decide +kernel

end Raglogs.GroupingLaws
