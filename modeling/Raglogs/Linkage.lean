import Raglogs.CallGraph

/-!
The service graph of trigger linkage, next to the call graph of the structural model.
The service graph looks a span up by its id alone, so the last span that holds an id
stands for all of them. The two graphs agree exactly when nothing is lost or invented by
that: a link inside a trace that is overwritten is repeated by a link that is kept, and a
kept link that is none inside a trace repeats one that is.
-/

namespace Raglogs.Linkage

open Collections Dicts LogEntries StructuralSignals CallGraph Telemetry Text

/-- Directed edges from caller to callee, and the services seen. -/
structure ServiceGraph where
  edges : Finset (String × String)
  services : Finset String

/-- What the graph reads of a span. -/
structure SpanFields where
  spanId : String
  parentSpanId : Option String
  service : String

variable {K : Type}

/-- The fields of a span that has an id and a service. -/
def spanFields (sp : TraceSpan K) : Option SpanFields := do
  let spanId ← sp.spanId
  let service ← truthy sp.service
  return ⟨spanId, sp.parentSpanId, service⟩

/-- The edge that the last span with an id gives. -/
def linkOf (svcOf : Dict String String) (parentOf : Dict String (Option String))
    (spanId : String) : Option (String × String) := do
  let parentSpanId ← (parentOf.lookup spanId).join
  let parentService ← truthy (svcOf.lookup parentSpanId)
  let childService ← truthy (svcOf.lookup spanId)
  if parentService ≠ childService then return (parentService, childService) else none

def serviceGraphFromSpans (spans : List (TraceSpan K)) : ServiceGraph :=
  let rows := spans.filterMap spanFields
  let svcOf := dictOf (rows.map (fun r => (r.spanId, r.service)))
  let parentOf := dictOf (rows.map (fun r => (r.spanId, r.parentSpanId)))
  let ids := fromKeys (rows.map SpanFields.spanId)
  { edges := (ids.filterMap (linkOf svcOf parentOf)).toFinset
    services := (ids.filterMap svcOf.lookup).toFinset }

/-! What the rows say. -/

/-- The span that stands for an id: the last one that holds it and has a service. -/
def Holds (spans : List (TraceSpan K)) (id : String) (sp : TraceSpan K) : Prop :=
  (spans.filter (fun r => r.spanId == some id && (truthy r.service).isSome)).getLast? = some sp

/-- A parent link inside one trace. -/
def TraceLink (spans : List (TraceSpan K)) (parent child : TraceSpan K) : Prop :=
  parent ∈ spans ∧ child ∈ spans ∧ ∃ key, spanKey parent.traceId parent.spanId = some key ∧
    spanKey child.traceId child.parentSpanId = some key

/-- A parent link between spans that each stand for an id, in whatever traces. -/
def KeptLink (spans : List (TraceSpan K)) (parent child : TraceSpan K) : Prop :=
  ∃ id parentId, Holds spans id child ∧ child.parentSpanId = some parentId ∧
    Holds spans parentId parent

/-- Two spans are of these two services, which are distinct. -/
def Joins (parent child : TraceSpan K) (caller callee : String) : Prop :=
  truthy parent.service = some caller ∧ truthy child.service = some callee ∧ caller ≠ callee

theorem spanFields_eq_some {sp : TraceSpan K} {r : SpanFields} :
    spanFields sp = some r ↔ sp.spanId = some r.spanId ∧ truthy sp.service = some r.service ∧
      sp.parentSpanId = r.parentSpanId := by
  unfold spanFields
  cases sp.spanId <;> cases truthy sp.service <;> cases r <;> simp [and_comm]

theorem filter_spanFields (spans : List (TraceSpan K)) (id : String) :
    (spans.filterMap spanFields).filter (fun r => r.spanId = id) =
      (spans.filter (fun r => r.spanId == some id && (truthy r.service).isSome)).filterMap
        spanFields := by
  induction spans with
  | nil => rfl
  | cons sp rest ih =>
    rw [List.filterMap_cons]
    cases hid : sp.spanId with
    | none => simp [spanFields, hid, ih]
    | some spanId =>
      cases hservice : truthy sp.service with
      | none => simp [spanFields, hid, hservice, ih]
      | some service =>
        have hfields : spanFields sp = some ⟨spanId, sp.parentSpanId, service⟩ := by
          simp [spanFields, hid, hservice]
        by_cases hk : spanId = id
        · simp [hfields, hid, hservice, hk, ih]
        · simp [hfields, hid, hservice, hk, ih]

/-- A dict of the service graph is read at the span that stands for an id. -/
theorem lookup_rows {ν : Type} (value : SpanFields → ν) (spans : List (TraceSpan K)) (id : String)
    (v : ν) :
    (dictOf ((spans.filterMap spanFields).map (fun r => (r.spanId, value r)))).lookup id = some v ↔
      ∃ sp, Holds spans id sp ∧ ∃ r, spanFields sp = some r ∧ value r = v := by
  have hlast : ∀ l : List (TraceSpan K), (∀ sp ∈ l, (spanFields sp).isSome) →
      (l.filterMap spanFields).getLast? = l.getLast?.bind spanFields := by
    intro l hl
    cases l using List.reverseRecOn with
    | nil => rfl
    | append_singleton l sp =>
      obtain ⟨r, hr⟩ := Option.isSome_iff_exists.mp (hl sp (by simp))
      simp [List.filterMap_append, hr]
  have hnamed : ∀ sp ∈ spans.filter (fun r => r.spanId == some id && (truthy r.service).isSome),
      (spanFields sp).isSome := by
    intro sp hsp
    obtain ⟨hid, hservice⟩ := Bool.and_eq_true_iff.mp (List.mem_filter.mp hsp).2
    obtain ⟨service, hservice⟩ := Option.isSome_iff_exists.mp hservice
    simp [spanFields, beq_iff_eq.mp hid, hservice]
  rw [lookup_dictOf_last, filter_spanFields, hlast _ hnamed]
  unfold Holds
  cases (spans.filter (fun r => r.spanId == some id && (truthy r.service).isSome)).getLast? with
  | none => simp
  | some sp => simp [Option.map_eq_some_iff]

theorem Holds.fields {spans : List (TraceSpan K)} {id : String} {sp : TraceSpan K}
    (h : Holds spans id sp) :
    sp ∈ spans ∧ sp.spanId = some id ∧ ∃ service, truthy sp.service = some service := by
  have hmem := List.mem_filter.mp (List.mem_of_getLast? h)
  obtain ⟨hid, hservice⟩ := Bool.and_eq_true_iff.mp hmem.2
  exact ⟨hmem.1, beq_iff_eq.mp hid, Option.isSome_iff_exists.mp hservice⟩

/-- A service is looked up at the span that stands for the id. -/
theorem truthy_lookup_svcOf {spans : List (TraceSpan K)} {id service : String} :
    truthy ((dictOf ((spans.filterMap spanFields).map (fun r => (r.spanId, r.service)))).lookup
      id) = some service ↔ ∃ sp, Holds spans id sp ∧ truthy sp.service = some service := by
  rw [truthy_eq_some, lookup_rows]
  constructor
  · rintro ⟨⟨sp, hholds, r, hr, rfl⟩, -⟩
    exact ⟨sp, hholds, (spanFields_eq_some.mp hr).2.1⟩
  · rintro ⟨sp, hholds, hservice⟩
    refine ⟨⟨sp, hholds, ⟨id, sp.parentSpanId, service⟩, ?_, rfl⟩, (truthy_eq_some.mp hservice).2⟩
    exact spanFields_eq_some.mpr ⟨hholds.fields.2.1, hservice, rfl⟩

theorem lookup_parentOf {spans : List (TraceSpan K)} {id parentId : String} :
    ((dictOf ((spans.filterMap spanFields).map (fun r => (r.spanId, r.parentSpanId)))).lookup
      id).join = some parentId ↔ ∃ sp, Holds spans id sp ∧ sp.parentSpanId = some parentId := by
  rw [Option.join_eq_some_iff, lookup_rows]
  constructor
  · rintro ⟨sp, hholds, r, hr, hparent⟩
    exact ⟨sp, hholds, (spanFields_eq_some.mp hr).2.2.trans hparent⟩
  · rintro ⟨sp, hholds, hparent⟩
    obtain ⟨-, hid, service, hservice⟩ := hholds.fields
    exact ⟨sp, hholds, ⟨id, sp.parentSpanId, service⟩, spanFields_eq_some.mpr ⟨hid, hservice, rfl⟩,
      hparent⟩

theorem mem_edges {spans : List (TraceSpan K)} {caller callee : String} :
    (caller, callee) ∈ (serviceGraphFromSpans spans).edges ↔
      ∃ parent child, KeptLink spans parent child ∧ Joins parent child caller callee := by
  unfold serviceGraphFromSpans
  rw [List.mem_toFinset, List.mem_filterMap]
  simp only [linkOf, Option.bind_eq_bind, Option.bind_eq_some_iff, lookup_parentOf,
    truthy_lookup_svcOf]
  constructor
  · rintro ⟨id, -, parentId, ⟨child, hchild, hparentId⟩, a, ⟨parent, hparent, ha⟩, b,
      ⟨child', hchild', hb⟩, hne⟩
    obtain rfl : child = child' := Option.some.inj (hchild.symm.trans hchild')
    split at hne
    · rename_i hdistinct
      obtain ⟨rfl, rfl⟩ := Prod.mk.inj (Option.some.inj hne)
      exact ⟨parent, child, ⟨id, parentId, hchild, hparentId, hparent⟩, ha, hb, hdistinct⟩
    · exact absurd hne (by simp)
  · rintro ⟨parent, child, ⟨id, parentId, hchild, hparentId, hparent⟩, ha, hb, hdistinct⟩
    obtain ⟨hmem, hid, -⟩ := hchild.fields
    refine ⟨id, ?_, parentId, ⟨child, hchild, hparentId⟩, caller, ⟨parent, hparent, ha⟩, callee,
      ⟨child, hchild, hb⟩, if_pos hdistinct⟩
    rw [mem_fromKeys, List.mem_map]
    exact ⟨⟨id, child.parentSpanId, callee⟩, List.mem_filterMap.mpr ⟨child, hmem,
      spanFields_eq_some.mpr ⟨hid, hb, rfl⟩⟩, rfl⟩

theorem mem_callEdges {spans : List (TraceSpan K)} (h : UniqueSpans spans)
    {caller callee : String} :
    (caller, callee) ∈ callEdges spans none ↔
      ∃ parent child, TraceLink spans parent child ∧ Joins parent child caller callee := by
  unfold callEdges
  rw [List.mem_toFinset, List.mem_filterMap]
  constructor
  · rintro ⟨child, hchild, hedge⟩
    simp only [edgeOf, Option.bind_eq_bind, Option.bind_eq_some_iff] at hedge
    obtain ⟨service, hservice, key, hkey, found, hfound, hne⟩ := hedge
    split at hne
    · rename_i hdistinct
      obtain ⟨rfl, rfl⟩ := Prod.mk.inj (Option.some.inj hne)
      obtain ⟨parent, hparent, hparentKey, hvalue⟩ := (lookup_indexById h).mp hfound
      exact ⟨parent, child, ⟨hparent, (List.mem_filter.mp hchild).1, key, hparentKey, hkey⟩,
        hvalue, hservice, hdistinct⟩
    · exact absurd hne (by simp)
  · rintro ⟨parent, child, ⟨hparent, hchild, key, hparentKey, hkey⟩, hvalue, hservice, hdistinct⟩
    have hfound : (serviceById spans).lookup key = some caller :=
      (lookup_indexById h).mpr ⟨parent, hparent, hparentKey, hvalue⟩
    refine ⟨child, List.mem_filter.mpr ⟨hchild, rfl⟩, ?_⟩
    simp [edgeOf, hservice, hkey, hfound, hdistinct]

/-- The graphs agree, and on the services that a link inside a trace joins. -/
def GraphsAgree (spans : List (TraceSpan K)) : Prop :=
  (serviceGraphFromSpans spans).edges = callEdges spans none ∧
    ∀ caller callee, (caller, callee) ∈ callEdges spans none ↔
      ∃ parent child, TraceLink spans parent child ∧ Joins parent child caller callee

/-- Both ends of a link stand for their ids. -/
def BothHold (spans : List (TraceSpan K)) (parent child : TraceSpan K) : Prop :=
  (∃ id, Holds spans id parent) ∧ ∃ id, Holds spans id child

/-- What an overwritten span loses is repeated by a kept link, and what a lookup across
traces invents is there in one trace as well. -/
structure Harmless (spans : List (TraceSpan K)) : Prop where
  lost : ∀ parent child caller callee, TraceLink spans parent child →
    Joins parent child caller callee → ¬BothHold spans parent child →
    ∃ parent' child', KeptLink spans parent' child' ∧ Joins parent' child' caller callee
  invented : ∀ parent child caller callee, KeptLink spans parent child →
    Joins parent child caller callee → ¬TraceLink spans parent child →
    ∃ parent' child', TraceLink spans parent' child' ∧ Joins parent' child' caller callee

/-- A link inside a trace both of whose ends stand for their ids is kept. -/
theorem keptLink_of_bothHold {spans : List (TraceSpan K)} {parent child : TraceSpan K}
    (hlink : TraceLink spans parent child) (hboth : BothHold spans parent child) :
    KeptLink spans parent child := by
  obtain ⟨-, -, key, hparent, hchild⟩ := hlink
  obtain ⟨⟨parentId, hparentHolds⟩, id, hchildHolds⟩ := hboth
  have hspan := (truthy_eq_some.mp (spanKey_eq_some.mp hparent).2).1
  have hparentSpan := (truthy_eq_some.mp (spanKey_eq_some.mp hchild).2).1
  have hid : parentId = key.2 :=
    Option.some.inj (hparentHolds.fields.2.1.symm.trans hspan)
  exact ⟨id, parentId, hchildHolds, hid ▸ hparentSpan, hparentHolds⟩

/-- The two call graphs agree exactly when overwritten spans do no harm. -/
theorem call_graphs_agree_iff {spans : List (TraceSpan K)} (h : UniqueSpans spans) :
    GraphsAgree spans ↔ Harmless spans := by
  constructor
  · rintro ⟨heq, -⟩
    refine ⟨?_, ?_⟩
    · intro parent child caller callee hlink hjoins _
      rw [← mem_edges, heq, mem_callEdges h]
      exact ⟨parent, child, hlink, hjoins⟩
    · intro parent child caller callee hlink hjoins _
      rw [← mem_callEdges h, ← heq, mem_edges]
      exact ⟨parent, child, hlink, hjoins⟩
  · intro hharmless
    refine ⟨?_, fun caller callee => mem_callEdges h⟩
    ext ⟨caller, callee⟩
    rw [mem_edges, mem_callEdges h]
    constructor
    · rintro ⟨parent, child, hlink, hjoins⟩
      by_cases htrace : TraceLink spans parent child
      · exact ⟨parent, child, htrace, hjoins⟩
      · exact hharmless.invented parent child caller callee hlink hjoins htrace
    · rintro ⟨parent, child, hlink, hjoins⟩
      by_cases hboth : BothHold spans parent child
      · exact ⟨parent, child, keptLink_of_bothHold hlink hboth, hjoins⟩
      · exact hharmless.lost parent child caller callee hlink hjoins hboth

/-- An id that one span holds stands for that span. -/
theorem holds_of_unique {spans : List (TraceSpan K)}
    (hids : ((spans.filterMap spanFields).map SpanFields.spanId).Nodup) {id service : String}
    {sp : TraceSpan K} (hsp : sp ∈ spans) (hid : sp.spanId = some id)
    (hservice : truthy sp.service = some service) : Holds spans id sp := by
  unfold Holds
  set held := spans.filter (fun r => r.spanId == some id && (truthy r.service).isSome) with hheld
  have hmem : sp ∈ held := List.mem_filter.mpr ⟨hsp, by simp [hid, hservice]⟩
  have hnamed : ∀ r ∈ held, (spanFields r).isSome := by
    intro r hr
    obtain ⟨hrid, hrservice⟩ := Bool.and_eq_true_iff.mp (List.mem_filter.mp hr).2
    obtain ⟨s, hs⟩ := Option.isSome_iff_exists.mp hrservice
    simp [spanFields, beq_iff_eq.mp hrid, hs]
  have hlength : (held.filterMap spanFields).length = held.length :=
    List.filterMap_length_eq_length.mpr hnamed
  have hone : (held.filterMap spanFields).length ≤ 1 := by
    rw [hheld, ← filter_spanFields]
    have hnodup := (hids.sublist (List.Sublist.map SpanFields.spanId
      (List.filter_sublist (p := fun r : SpanFields => decide (r.spanId = id))
        (l := spans.filterMap spanFields))))
    have hall : ∀ i ∈ ((spans.filterMap spanFields).filter (fun r => r.spanId = id)).map
        SpanFields.spanId, i = id := by
      intro i hi
      obtain ⟨r, hr, rfl⟩ := List.mem_map.mp hi
      exact of_decide_eq_true (List.mem_filter.mp hr).2
    rw [← List.length_map (f := SpanFields.spanId)]
    by_contra hlong
    rw [List.eq_replicate_of_mem hall, List.nodup_replicate] at hnodup
    exact hlong hnodup
  rw [hlength] at hone
  obtain ⟨r, hr⟩ := List.length_eq_one_iff.mp (le_antisymm hone (List.length_pos_of_mem hmem))
  rw [hr] at hmem ⊢
  rw [List.mem_singleton.mp hmem]
  rfl

/-- Where every span has an id of its own and parents are in the same trace, no harm is done. -/
theorem harmless_of_unique {spans : List (TraceSpan K)}
    (hids : ((spans.filterMap spanFields).map SpanFields.spanId).Nodup)
    (hnamed : ∀ sp ∈ spans, sp.spanId ≠ none)
    (htrace : ∀ parent ∈ spans, ∀ child ∈ spans, ∀ id, parent.spanId = some id →
      child.parentSpanId = some id → TraceLink spans parent child) : Harmless spans := by
  refine ⟨?_, ?_⟩
  · intro parent child caller callee hlink hjoins hnot
    obtain ⟨parentId, hparentId⟩ := Option.ne_none_iff_exists'.mp (hnamed _ hlink.1)
    obtain ⟨childId, hchildId⟩ := Option.ne_none_iff_exists'.mp (hnamed _ hlink.2.1)
    exact absurd ⟨⟨parentId, holds_of_unique hids hlink.1 hparentId hjoins.1⟩,
      ⟨childId, holds_of_unique hids hlink.2.1 hchildId hjoins.2.1⟩⟩ hnot
  · rintro parent child caller callee ⟨id, parentId, hchild, hparentId, hparent⟩ - hnot
    exact absurd (htrace parent hparent.fields.1 child hchild.fields.1 parentId
      hparent.fields.2.1 hparentId) hnot

/-! Two traces with the same span ids. -/

def namedSpan (traceId spanId : String) (parentSpanId : Option String) (service : String) :
    TraceSpan (Exact ℚ) where
  traceId := some traceId
  spanId := some spanId
  parentSpanId := parentSpanId
  service := some service
  operation := none
  startTime := some 0
  durationMs := none
  statusCode := none
  scope := "default"

/-- One trace alone. -/
def oneTrace : List (TraceSpan (Exact ℚ)) :=
  [namedSpan "t1" "1" none "web", namedSpan "t1" "2" (some "1") "cart"]

/-- Two traces, the second with the same span ids in other services. -/
def reusedIds : List (TraceSpan (Exact ℚ)) :=
  oneTrace ++ [namedSpan "t2" "1" none "batch", namedSpan "t2" "2" (some "1") "store"]

theorem call_graphs_agree_reused :
    GraphsAgree reusedIds ↔ Harmless reusedIds :=
  call_graphs_agree_iff (by unfold UniqueSpans; decide)

/-- The second trace overwrites the first one: the service graph loses its edge. -/
theorem reused_ids_lose_edge :
    UniqueSpans reusedIds ∧ (∀ sp ∈ reusedIds, sp.traceId ≠ none) ∧
    callEdges reusedIds none = {("web", "cart"), ("batch", "store")} ∧
    (serviceGraphFromSpans reusedIds).edges = {("batch", "store")} ∧
    ¬GraphsAgree reusedIds := by
  have hcalls : callEdges reusedIds none = {("web", "cart"), ("batch", "store")} := by
    decide
  have hgraph : (serviceGraphFromSpans reusedIds).edges = {("batch", "store")} := by decide
  refine ⟨by unfold UniqueSpans; decide, by decide, hcalls, hgraph, ?_⟩
  rintro ⟨heq, -⟩
  rw [hcalls, hgraph] at heq
  exact absurd heq (by decide)

end Raglogs.Linkage
