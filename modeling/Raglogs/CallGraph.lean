import Mathlib.Data.Prod.Lex
import Raglogs.StructuralSignals

/-!
The call graph of spans, and the signals of its edges. A span id is scoped to its trace,
so a parent is looked up by trace and span. An edge is measured on the caller's spans of
the operations whose observed children are almost all in the callee.
-/

namespace Raglogs.CallGraph

open Collections Dicts LogEntries SortedDicts StructuralSignals Telemetry Text

variable {K : Type} [Arithmetic K] (rd : Rendering) (windowStart : Timestamp)

/-- The key a parent link is resolved by, when trace and span are named. -/
def spanKey (traceId spanId : Option String) : Option (String × String) := do
  let trace ← truthy traceId
  let span ← truthy spanId
  return (trace, span)

/-- A value of each span that has one, by trace and span id. -/
def indexById {ν : Type} (value : TraceSpan K → Option ν) (spans : List (TraceSpan K)) :
    Dict (String × String) ν :=
  dictOf (spans.filterMap (fun sp => do
    let v ← value sp
    let key ← spanKey sp.traceId sp.spanId
    return (key, v)))

/-- The service of a span that has one, by trace and span id. -/
def serviceById (spans : List (TraceSpan K)) : Dict (String × String) String :=
  indexById (fun sp => truthy sp.service) spans

/-- The spans that have a service, by trace and span id. -/
def spansById (spans : List (TraceSpan K)) : Dict (String × String) (TraceSpan K) :=
  indexById (fun sp => (truthy sp.service).map (fun _ => sp)) spans

/-- Caller and callee of a span whose parent is in another service. -/
def edgeOf (serviceOf : Dict (String × String) String) (sp : TraceSpan K) :
    Option (String × String) := do
  let service ← truthy sp.service
  let key ← spanKey sp.traceId sp.parentSpanId
  let caller ← serviceOf.lookup key
  if caller ≠ service then return (caller, service) else none

/-- A child of the incident; without a bound every span is one. -/
def startsSince (since : Option Timestamp) (sp : TraceSpan K) : Bool :=
  match since with
  | some since => isIncident since sp
  | none => true

/-- The distinct caller and callee services of parent links within a trace. -/
def callEdges (spans : List (TraceSpan K)) (since : Option Timestamp) :
    Finset (String × String) :=
  ((spans.filter (startsSince since)).filterMap (edgeOf (serviceById spans))).toFinset

/-- The caller's service and operation and the callee of a call to another service. -/
def observedCall (byId : Dict (String × String) (TraceSpan K)) (sp : TraceSpan K) :
    Option ((String × String) × String) := do
  let service ← truthy sp.service
  let key ← spanKey sp.traceId sp.parentSpanId
  let parent ← byId.lookup key
  let caller ← truthy parent.service
  let operation ← truthy parent.operation
  if caller ≠ service then return ((caller, operation), service) else none

def observedCalls (spans : List (TraceSpan K)) : List ((String × String) × String) :=
  spans.filterMap (observedCall (spansById spans))

/-- The callees of one operation of a caller, a callee for each call. -/
def calleesOf (spans : List (TraceSpan K)) (operation : String × String) : List String :=
  ((observedCalls spans).filter (fun call => call.1 == operation)).map Prod.snd

/-- The first of the most common elements, with its count. -/
def mostCommon (l : List String) : Option (String × ℕ) :=
  match fromKeys l with
  | [] => none
  | first :: others =>
      let best := others.foldl (fun best a => if l.count best < l.count a then a else best) first
      some (best, l.count best)

/-- The share of an operation's calls that must go to one service. -/
def dominance : K := ((9 : ℕ) : K) / ((10 : ℕ) : K)

/-- The callee of an operation, when its calls go to one service almost always. -/
def learnCallTargets (spans : List (TraceSpan K)) (operation : String × String) : Option String :=
  match mostCommon (calleesOf spans operation) with
  | some (callee, n) =>
      if (dominance : K) ≤ (n : K) / ((calleesOf spans operation).length : K) then some callee
      else none
  | none => none

/-- The edge that a span of the caller measures. -/
def edgeKey (targets : String × String → Option String) (sp : TraceSpan K) :
    Option (String × String) := do
  let service ← truthy sp.service
  let operation ← sp.operation
  let callee ← targets (service, operation)
  return (service, callee)

/-- The rows of an edge. -/
def spansOfEdge (spans : List (TraceSpan K)) (edge : String × String) : List (TraceSpan K) :=
  spans.filter (fun sp => edgeKey (learnCallTargets spans) sp == some edge)

/-- The signal of one edge. -/
def edgeSignal (spans : List (TraceSpan K)) (edge : Pair) : Except ModelError (EdgeSignal K) := do
  let m ← (tallySpans rd windowStart (spansOfEdge spans (ofLex edge))).measure
  return { m with caller := (ofLex edge).1, callee := (ofLex edge).2 }

/-- The signals of the edges called in the incident. -/
def summarizeEdges (spans : List (TraceSpan K)) :
    Except ModelError (Dict Pair (EdgeSignal K)) :=
  let called := (spans.filter (isIncident windowStart)).filterMap
    (edgeKey (learnCallTargets spans))
  tabulate (inOrder (called.map toLex).toFinset) (edgeSignal rd windowStart spans)

/-! Callees. -/

theorem mostCommon_mem {l : List String} {a : String} {n : ℕ} (h : mostCommon l = some (a, n)) :
    a ∈ l ∧ n = l.count a := by
  unfold mostCommon at h
  split at h
  · cases h
  · rename_i first others hkeys
    obtain ⟨rfl, rfl⟩ := Prod.mk.inj (Option.some.inj h)
    refine ⟨?_, rfl⟩
    rw [← mem_fromKeys, hkeys]
    clear h hkeys
    induction others generalizing first with
    | nil => exact List.mem_singleton_self first
    | cons b others ih =>
      rw [List.foldl_cons]
      split
      · exact List.mem_cons_of_mem _ (ih b)
      · rcases List.mem_cons.mp (ih first) with hb | hb
        · rw [hb]
          exact List.mem_cons_self
        · exact List.mem_cons_of_mem _ (List.mem_cons_of_mem _ hb)

theorem learnCallTargets_mem {spans : List (TraceSpan K)} {operation : String × String}
    {callee : String} (h : learnCallTargets spans operation = some callee) :
    callee ∈ calleesOf spans operation := by
  unfold learnCallTargets at h
  split at h
  · rename_i callee' n hcommon
    split at h
    · obtain rfl := Option.some.inj h
      exact (mostCommon_mem hcommon).1
    · cases h
  · cases h

omit [Arithmetic K] in
theorem ne_of_mem_calleesOf {spans : List (TraceSpan K)} {operation : String × String}
    {callee : String} (h : callee ∈ calleesOf spans operation) : callee ≠ "" := by
  obtain ⟨call, hcall, rfl⟩ := List.mem_map.mp h
  obtain ⟨sp, -, hsp⟩ := List.mem_filterMap.mp (List.mem_filter.mp hcall).1
  simp only [observedCall, Option.bind_eq_bind, Option.bind_eq_some_iff] at hsp
  obtain ⟨service, hservice, key, -, parent, -, caller, -, operation, -, hcall⟩ := hsp
  split at hcall
  · obtain rfl := Option.some.inj hcall
    exact (truthy_eq_some.mp hservice).2
  · cases hcall

/-- An edge is measured for named services only. -/
theorem edgeKey_ne {spans : List (TraceSpan K)} {sp : TraceSpan K} {edge : String × String}
    (h : edgeKey (learnCallTargets spans) sp = some edge) : edge.2 ≠ "" := by
  simp only [edgeKey, Option.bind_eq_bind, Option.bind_eq_some_iff] at h
  obtain ⟨service, -, operation, -, callee, hcallee, h⟩ := h
  obtain rfl := Option.some.inj h
  exact ne_of_mem_calleesOf (learnCallTargets_mem hcallee)

omit [Arithmetic K] in
/-- A call edge joins named services. -/
theorem callEdges_ne {spans : List (TraceSpan K)} {since : Option Timestamp}
    {edge : String × String} (h : edge ∈ callEdges spans since) : edge.2 ≠ "" := by
  obtain ⟨sp, -, hedge⟩ := List.mem_filterMap.mp (List.mem_toFinset.mp h)
  simp only [edgeOf, Option.bind_eq_bind, Option.bind_eq_some_iff] at hedge
  obtain ⟨service, hservice, key, -, caller, -, hedge⟩ := hedge
  split at hedge
  · obtain rfl := Option.some.inj hedge
    exact (truthy_eq_some.mp hservice).2
  · cases hedge

/-! Spans with unique ids. -/

/-- No two spans with a trace and an id have both in common. -/
def UniqueSpans (spans : List (TraceSpan K)) : Prop :=
  (spans.filterMap (fun sp => spanKey sp.traceId sp.spanId)).Nodup

omit [Arithmetic K] in
theorem spanKey_eq_some {traceId spanId : Option String} {key : String × String} :
    spanKey traceId spanId = some key ↔
      truthy traceId = some key.1 ∧ truthy spanId = some key.2 := by
  unfold spanKey
  cases truthy traceId <;> cases truthy spanId <;> simp [Prod.ext_iff]

omit [Arithmetic K] in
theorem indexById_keys_sublist {ν : Type} (value : TraceSpan K → Option ν)
    (spans : List (TraceSpan K)) :
    ((spans.filterMap (fun sp => do
      let v ← value sp
      let key ← spanKey sp.traceId sp.spanId
      return (key, v))).map Prod.fst).Sublist
        (spans.filterMap (fun sp => spanKey sp.traceId sp.spanId)) := by
  induction spans with
  | nil => exact List.Sublist.refl _
  | cons sp rest ih =>
    rw [List.filterMap_cons, List.filterMap_cons]
    cases spanKey sp.traceId sp.spanId with
    | none => cases value sp <;> simpa using ih
    | some key =>
      cases value sp with
      | none => exact (List.Sublist.cons key (by simpa using ih))
      | some v => exact (List.Sublist.cons_cons key (by simpa using ih))

omit [Arithmetic K] in
/-- Each key is looked up in the one span that has it. -/
theorem lookup_indexById {ν : Type} {value : TraceSpan K → Option ν} {spans : List (TraceSpan K)}
    (h : UniqueSpans spans) {key : String × String} {v : ν} :
    (indexById value spans).lookup key = some v ↔
      ∃ sp ∈ spans, spanKey sp.traceId sp.spanId = some key ∧ value sp = some v := by
  unfold indexById
  rw [lookup_dictOf (h.sublist (indexById_keys_sublist value spans)), List.mem_filterMap]
  refine exists_congr fun sp => and_congr_right fun _ => ?_
  cases value sp <;> cases spanKey sp.traceId sp.spanId <;> simp [and_comm]

end Raglogs.CallGraph
