import Raglogs.CallGraph
import Raglogs.Propagation

/-!
Blame along failed edges. A span with an error status implicates what it called: the
services of its children share its weight, and without a child in another service it
implicates its own. Children are looked up by the parent's span id alone, so a span id that
recurs in another trace lends its children to both.
-/

namespace Raglogs.FailedEdges

open Collections Dicts LogEntries Propagation ServiceGraphs Telemetry Text

/-- What is read of a span. -/
structure SpanRow where
  spanId : Option String
  parentSpanId : Option String
  service : Option String
  statusCode : Option String

variable {K : Type} (lowering : Lowering) (order : SetOrder)

def rowOf (sp : TraceSpan K) : SpanRow := ⟨sp.spanId, sp.parentSpanId, sp.service, sp.statusCode⟩

/-- The spans of a scope that start in a window, both ends included. -/
def spansInWindow (spans : List (TraceSpan K)) (scope : String)
    (windowStart windowEnd : Timestamp) : List (TraceSpan K) :=
  spans.filter fun sp =>
    sp.scope == scope && sp.startTime.any fun ts => windowStart ≤ ts && ts ≤ windowEnd

def errorSpanEdges (spans : List (TraceSpan K)) (scope : String)
    (windowStart windowEnd : Timestamp) : List SpanRow :=
  (spansInWindow spans scope windowStart windowEnd).map rowOf

def isErrorStatus (status : Option String) : Bool :=
  status.any fun sc => ["2", "error", "status_code_error"].contains (lowering.lower (strip sc))

/-- The id and the service of a row that has both. -/
def identify (r : SpanRow) : Option (String × String) := do
  let service ← truthy r.service
  let spanId ← r.spanId
  return (spanId, service)

/-- The link of a row to its parent. -/
def childLink (r : SpanRow) : Option (String × String × String) := do
  let child ← identify r
  let parentSpanId ← r.parentSpanId
  return (parentSpanId, child)

def childrenByParent (rows : List SpanRow) : Dict String (List (String × String)) :=
  accumulate Prod.fst [] (fun children link => children ++ [link.2]) ∅ (rows.filterMap childLink)

def errorSpans (rows : List SpanRow) : List (String × String) :=
  (rows.filter fun r => isErrorStatus lowering r.statusCode).filterMap identify

/-- The other services that the children of a span are in. -/
def calleesOf (children : Dict String (List (String × String))) (span : String × String) :
    Finset String :=
  (((children.lookup span.1).getD []).map Prod.snd).toFinset.filter fun svc => svc ≠ span.2

/-- What one error span adds to the scores. -/
def credits (children : Dict String (List (String × String))) (span : String × String) :
    List (String × ℚ) :=
  let callees := calleesOf children span
  if callees = ∅ then [(span.2, 1)]
  else (order.toList callees).map fun callee => (callee, 1 / (callees.card : ℚ))

def addCredits (l : List (String × ℚ)) : Dict String ℚ :=
  accumulate Prod.fst 0 (fun score credit => score + credit.2) ∅ l

def failedEdgeDependencies (rows : List SpanRow) : Dict String ℚ :=
  addCredits ((errorSpans lowering rows).flatMap (credits order (childrenByParent rows)))

/-! Scores as sums of credits. -/

theorem lookup_addCredits (l : List (String × ℚ)) (k : String) :
    (addCredits l).lookup k =
      if l.filter (fun credit => credit.1 = k) = [] then none
      else some ((l.filter (fun credit => credit.1 = k)).map Prod.snd).sum := by
  have hfold : ∀ (m : List (String × ℚ)) (x : ℚ),
      m.foldl (fun score credit => score + credit.2) x = x + (m.map Prod.snd).sum := by
    intro m
    induction m with
    | nil => simp
    | cons credit m ih =>
      intro x
      rw [List.foldl_cons, ih, List.map_cons, List.sum_cons, add_assoc]
  rw [addCredits, lookup_accumulate, hfold]
  simp

theorem valueOf_addCredits (l : List (String × ℚ)) (k : String) :
    valueOf (addCredits l) k = ((l.filter (fun credit => credit.1 = k)).map Prod.snd).sum := by
  rw [valueOf, lookup_addCredits]
  split
  · rename_i hnone
    rw [hnone]
    rfl
  · rfl

theorem addCredits_eq_of_perm {l l' : List (String × ℚ)} (h : l.Perm l') :
    addCredits l = addCredits l' := by
  refine Finmap.ext_lookup fun k => ?_
  have hfilter := h.filter fun credit => credit.1 = k
  rw [lookup_addCredits, lookup_addCredits, (hfilter.map Prod.snd).sum_eq]
  simp only [← List.length_eq_zero_iff, hfilter.length_eq]

/-- Values grouped by key add up to all of them. -/
theorem sum_grouped (s : Finset String) (l : List (String × ℚ)) (h : ∀ credit ∈ l, credit.1 ∈ s) :
    ∑ k ∈ s, ((l.filter (fun credit => credit.1 = k)).map Prod.snd).sum =
      (l.map Prod.snd).sum := by
  induction l with
  | nil => simp
  | cons credit l ih =>
    have hhead : ∀ k, (((credit :: l).filter (fun c => c.1 = k)).map Prod.snd).sum =
        (if credit.1 = k then credit.2 else 0) +
          ((l.filter (fun c => c.1 = k)).map Prod.snd).sum := by
      intro k
      rw [List.filter_cons]
      by_cases hk : credit.1 = k <;> simp [hk]
    simp only [hhead]
    rw [Finset.sum_add_distrib, ih fun c hc => h c (List.mem_cons_of_mem _ hc),
      Finset.sum_ite_eq, if_pos (h credit List.mem_cons_self), List.map_cons, List.sum_cons]

/-- The sum of all scores. -/
def total (score : Dict String ℚ) : ℚ := ∑ k ∈ score.keys, valueOf score k

theorem total_addCredits (l : List (String × ℚ)) :
    total (addCredits l) = (l.map Prod.snd).sum := by
  have hkeys : ∀ credit ∈ l, credit.1 ∈ (addCredits l).keys := by
    intro credit hcredit
    have hin : credit ∈ l.filter (fun c => c.1 = credit.1) :=
      List.mem_filter.mpr ⟨hcredit, by simp⟩
    rw [Finmap.mem_keys, Finmap.mem_iff]
    exact ⟨_, (lookup_addCredits l credit.1).trans (if_neg (List.ne_nil_of_mem hin))⟩
  rw [total, ← sum_grouped _ l hkeys]
  exact Finset.sum_congr rfl fun k _ => valueOf_addCredits l k

/-- A span gives away its weight, no more and no less. -/
theorem sum_credits (children : Dict String (List (String × String))) (span : String × String) :
    ((credits order children span).map Prod.snd).sum = 1 := by
  rw [credits]
  split
  · simp
  · rename_i hcallees
    have hlength : (order.toList (calleesOf children span)).length =
        (calleesOf children span).card := by
      rw [← List.toFinset_card_of_nodup (order.nodup _)]
      congr 1
      ext svc
      rw [List.mem_toFinset, order.mem_toList]
    have hcard : ((calleesOf children span).card : ℚ) ≠ 0 :=
      Nat.cast_ne_zero.mpr (Finset.card_ne_zero.mpr (Finset.nonempty_iff_ne_empty.mpr hcallees))
    rw [List.map_map, List.sum_eq_card_nsmul _ (1 / ((calleesOf children span).card : ℚ)) (by simp)]
    rw [List.length_map, hlength, nsmul_eq_mul, mul_one_div_cancel hcard]

theorem total_failedEdgeDependencies (rows : List SpanRow) :
    total (failedEdgeDependencies lowering order rows) =
      ((errorSpans lowering rows).length : ℚ) := by
  rw [failedEdgeDependencies, total_addCredits]
  induction errorSpans lowering rows with
  | nil => simp
  | cons span rest ih =>
    rw [List.flatMap_cons, List.map_append, List.sum_append, sum_credits, ih, List.length_cons,
      Nat.cast_add, Nat.cast_one, add_comm]

/-! Who is credited. -/

theorem mem_children {rows : List SpanRow} {id : String} {child : String × String} :
    child ∈ ((childrenByParent rows).lookup id).getD [] ↔
      ∃ r ∈ rows, identify r = some child ∧ r.parentSpanId = some id := by
  have happend : ∀ (m : List (String × String × String)) (l : List (String × String)),
      m.foldl (fun children link => children ++ [link.2]) l = l ++ m.map Prod.snd := by
    intro m
    induction m with
    | nil => simp
    | cons link m ih =>
      intro l
      rw [List.foldl_cons, ih, List.map_cons, List.append_assoc, List.singleton_append]
  have hlink : ∀ r, childLink r = some (id, child) ↔
      identify r = some child ∧ r.parentSpanId = some id := by
    intro r
    rw [childLink]
    cases identify r <;> cases r.parentSpanId <;> simp [and_comm]
  have hmem : child ∈ ((rows.filterMap childLink).filter (fun link => link.1 = id)).map Prod.snd ↔
      ∃ r ∈ rows, childLink r = some (id, child) := by
    simp only [List.mem_map, List.mem_filter, List.mem_filterMap, decide_eq_true_eq]
    constructor
    · rintro ⟨⟨_, _⟩, ⟨⟨r, hr, hsome⟩, rfl⟩, rfl⟩
      exact ⟨r, hr, hsome⟩
    · rintro ⟨r, hr, hsome⟩
      exact ⟨(id, child), ⟨⟨r, hr, hsome⟩, rfl⟩, rfl⟩
  simp only [← hlink, ← hmem]
  rw [childrenByParent, lookup_accumulate, happend]
  split
  · rename_i hnone
    rw [hnone]
    simp
  · simp

theorem mem_calleesOf {rows : List SpanRow} {span : String × String} {svc : String} :
    svc ∈ calleesOf (childrenByParent rows) span ↔ svc ≠ span.2 ∧
      ∃ r ∈ rows, (∃ id, identify r = some (id, svc)) ∧ r.parentSpanId = some span.1 := by
  rw [calleesOf, Finset.mem_filter, List.mem_toFinset, List.mem_map, and_comm]
  refine and_congr_right fun _ => ?_
  constructor
  · rintro ⟨⟨id, _⟩, hchild, rfl⟩
    obtain ⟨r, hr, hid, hparent⟩ := mem_children.mp hchild
    exact ⟨r, hr, ⟨id, hid⟩, hparent⟩
  · rintro ⟨r, hr, ⟨id, hid⟩, hparent⟩
    exact ⟨(id, svc), mem_children.mpr ⟨r, hr, hid, hparent⟩, rfl⟩

theorem mem_credits {children : Dict String (List (String × String))} {span : String × String}
    {svc : String} : (∃ credit ∈ credits order children span, credit.1 = svc) ↔
      svc ∈ calleesOf children span ∨ (calleesOf children span = ∅ ∧ svc = span.2) := by
  rw [credits]
  split
  · rename_i hnone
    simp [hnone, eq_comm]
  · rename_i hsome
    simp [hsome, order.mem_toList]

/-- Rows in another order give the same scores. -/
theorem failedEdgeDependencies_eq_of_perm {rows rows' : List SpanRow} (h : rows.Perm rows') :
    failedEdgeDependencies lowering order rows = failedEdgeDependencies lowering order rows' := by
  have hcallees : calleesOf (childrenByParent rows) = calleesOf (childrenByParent rows') := by
    funext span
    ext svc
    simp only [mem_calleesOf, h.mem_iff]
  have hcredits : credits order (childrenByParent rows) =
      credits order (childrenByParent rows') := by
    funext span
    rw [credits, credits, hcallees]
  rw [failedEdgeDependencies, failedEdgeDependencies, hcredits]
  exact addCredits_eq_of_perm (((h.filter _).filterMap _).flatMap_right _)

/-! The stored spans behind the rows. -/

/-- A span in the same trace with a service and this span as its parent. -/
def OwnChild (spans : List (TraceSpan K)) (span : TraceSpan K) (svc : String) : Prop :=
  ∃ child ∈ spans, child.traceId = span.traceId ∧ child.parentSpanId = span.spanId ∧
    truthy child.service = some svc

/-- A span with an id and a service, in whatever trace, under a parent of this id. -/
def ChildById (spans : List (TraceSpan K)) (id svc : String) : Prop :=
  ∃ child ∈ spans, child.spanId.isSome ∧ child.parentSpanId = some id ∧
    truthy child.service = some svc

/-- An error span with an id and a service. -/
def Blames (spans : List (TraceSpan K)) (span : TraceSpan K) (id own : String) : Prop :=
  span ∈ spans ∧ isErrorStatus lowering span.statusCode = true ∧ span.spanId = some id ∧
    truthy span.service = some own

/-- The weight of a span goes to services of its own children, and to its own service only
without a child in another. -/
def Fair (spans : List (TraceSpan K)) (span : TraceSpan K) (id own : String) : Prop :=
  ∀ credit ∈ credits order (childrenByParent (spans.map rowOf)) (id, own),
    (credit.1 ≠ own ∧ OwnChild spans span credit.1) ∨
      (credit.1 = own ∧ ¬ ∃ svc, svc ≠ own ∧ OwnChild spans span svc)

/-- The children that are found are those of the span. -/
def Attributable (spans : List (TraceSpan K)) (span : TraceSpan K) (id own : String) : Prop :=
  (∀ svc, svc ≠ own → ChildById spans id svc → OwnChild spans span svc) ∧
    ((∃ svc, svc ≠ own ∧ OwnChild spans span svc) → ∃ svc, svc ≠ own ∧ ChildById spans id svc)

theorem mem_calleesOf_spans {spans : List (TraceSpan K)} {id own svc : String} :
    svc ∈ calleesOf (childrenByParent (spans.map rowOf)) (id, own) ↔
      svc ≠ own ∧ ChildById spans id svc := by
  have hidentify : ∀ child : TraceSpan K, (∃ i, identify (rowOf child) = some (i, svc)) ↔
      child.spanId.isSome ∧ truthy child.service = some svc := by
    intro child
    simp only [identify, rowOf]
    cases truthy child.service <;> cases child.spanId <;> simp
  rw [mem_calleesOf]
  refine and_congr_right fun _ => ?_
  constructor
  · rintro ⟨_, hr, hid, hparent⟩
    obtain ⟨child, hchild, rfl⟩ := List.mem_map.mp hr
    obtain ⟨hsome, hservice⟩ := (hidentify child).mp hid
    exact ⟨child, hchild, hsome, hparent, hservice⟩
  · rintro ⟨child, hchild, hsome, hparent, hservice⟩
    exact ⟨rowOf child, List.mem_map_of_mem hchild, (hidentify child).mpr ⟨hsome, hservice⟩,
      hparent⟩

theorem fair_iff {spans : List (TraceSpan K)} {span : TraceSpan K} {id own : String} :
    Fair order spans span id own ↔ Attributable spans span id own := by
  have hcredit : ∀ svc, (∃ credit ∈ credits order (childrenByParent (spans.map rowOf)) (id, own),
      credit.1 = svc) ↔ (svc ≠ own ∧ ChildById spans id svc) ∨
        ((∀ other, other ≠ own → ¬ ChildById spans id other) ∧ svc = own) := by
    intro svc
    rw [mem_credits, mem_calleesOf_spans, Finset.eq_empty_iff_forall_notMem]
    simp only [mem_calleesOf_spans, not_and]
  constructor
  · intro hfair
    refine ⟨?_, ?_⟩
    · intro svc hsvc hchild
      obtain ⟨credit, hmem, rfl⟩ := (hcredit svc).mpr (.inl ⟨hsvc, hchild⟩)
      rcases hfair credit hmem with ⟨-, hown⟩ | ⟨heq, -⟩
      · exact hown
      · exact absurd heq hsvc
    · intro hother
      by_contra hnone
      push Not at hnone
      obtain ⟨credit, hmem, heq⟩ := (hcredit own).mpr (.inr ⟨hnone, rfl⟩)
      rcases hfair credit hmem with ⟨hne, -⟩ | ⟨-, hno⟩
      · exact hne heq
      · exact hno hother
  · rintro ⟨hfound, hseen⟩ credit hmem
    rcases (hcredit credit.1).mp ⟨credit, hmem, rfl⟩ with ⟨hne, hchild⟩ | ⟨hnone, heq⟩
    · exact .inl ⟨hne, hfound _ hne hchild⟩
    · refine .inr ⟨heq, fun hother => ?_⟩
      obtain ⟨svc, hsvc, hchild⟩ := hseen hother
      exact hnone svc hsvc hchild

/-- The error spans with an id and a service. -/
def blaming (spans : List (TraceSpan K)) : List (TraceSpan K) :=
  spans.filter fun sp =>
    isErrorStatus lowering sp.statusCode && sp.spanId.isSome && (truthy sp.service).isSome

theorem length_errorSpans (spans : List (TraceSpan K)) :
    (errorSpans lowering (spans.map rowOf)).length = (blaming lowering spans).length := by
  induction spans with
  | nil => rfl
  | cons sp rest ih =>
    rw [errorSpans, blaming] at ih ⊢
    rw [List.map_cons, List.filter_cons, List.filter_cons]
    cases herror : isErrorStatus lowering (rowOf sp).statusCode
    · have herror' : isErrorStatus lowering sp.statusCode = false := herror
      simpa [herror'] using ih
    · have herror' : isErrorStatus lowering sp.statusCode = true := herror
      cases hid : sp.spanId <;> cases hservice : truthy sp.service <;>
        simpa [herror', hid, hservice, identify, rowOf] using ih

/-- Blame is conserved, whatever the order of the rows, and it stays where it belongs exactly
when the children found for each error span are its own. -/
theorem blame_conserved_iff (spans : List (TraceSpan K)) (scope : String)
    (windowStart windowEnd : Timestamp) :
    (total (failedEdgeDependencies lowering order
          (errorSpanEdges spans scope windowStart windowEnd)) =
        ((blaming lowering (spansInWindow spans scope windowStart windowEnd)).length : ℚ) ∧
      (∀ span id own,
        Blames lowering (spansInWindow spans scope windowStart windowEnd) span id own →
          Fair order (spansInWindow spans scope windowStart windowEnd) span id own) ∧
      ∀ rows, rows.Perm (errorSpanEdges spans scope windowStart windowEnd) →
        failedEdgeDependencies lowering order rows =
          failedEdgeDependencies lowering order
            (errorSpanEdges spans scope windowStart windowEnd)) ↔
    ∀ span id own, Blames lowering (spansInWindow spans scope windowStart windowEnd) span id own →
      Attributable (spansInWindow spans scope windowStart windowEnd) span id own := by
  have htotal := total_failedEdgeDependencies lowering order
    (errorSpanEdges spans scope windowStart windowEnd)
  rw [errorSpanEdges, length_errorSpans] at htotal
  constructor
  · rintro ⟨-, hfair, -⟩ span id own hblames
    exact (fair_iff order).mp (hfair span id own hblames)
  · intro hown
    exact ⟨htotal, fun span id own hblames => (fair_iff order).mpr (hown span id own hblames),
      fun rows hperm => failedEdgeDependencies_eq_of_perm lowering order hperm⟩

/-- Two traces that number their spans alike. -/
def numberedAlike : List (TraceSpan ℚ) :=
  [⟨some "t1", some "1", none, some "checkout", none, some 5, none, some "error", "default"⟩,
   ⟨some "t1", some "2", some "1", some "payment", none, some 6, none, some "ok", "default"⟩,
   ⟨some "t2", some "1", none, some "search", none, some 5, none, some "ok", "default"⟩,
   ⟨some "t2", some "2", some "1", some "catalog", none, some 6, none, some "ok", "default"⟩]

/-- The failed call to the payment service blames the catalog for a half. -/
theorem numberedAlike_unfair :
    CallGraph.UniqueSpans numberedAlike ∧
      ¬ ∀ span id own,
        Blames asciiLowering (spansInWindow numberedAlike "default" 0 10) span id own →
          Fair byName (spansInWindow numberedAlike "default" 0 10) span id own := by
  have hall : spansInWindow numberedAlike "default" 0 10 = numberedAlike := by
    simp [spansInWindow, numberedAlike]
  refine ⟨by rw [CallGraph.UniqueSpans]; decide, fun hfair => ?_⟩
  rw [hall] at hfair
  have hblames : Blames asciiLowering numberedAlike
      ⟨some "t1", some "1", none, some "checkout", none, some 5, none, some "error", "default"⟩
      "1" "checkout" := ⟨List.mem_cons_self, by decide, rfl, by decide⟩
  have hchild : ChildById numberedAlike "1" "catalog" :=
    ⟨⟨some "t2", some "2", some "1", some "catalog", none, some 6, none, some "ok", "default"⟩,
      by simp [numberedAlike], rfl, rfl, by decide⟩
  obtain ⟨child, hmem, htrace, hparent, hservice⟩ :=
    ((fair_iff byName).mp (hfair _ _ _ hblames)).1 "catalog" (by decide) hchild
  simp only [numberedAlike, List.mem_cons, List.not_mem_nil, or_false] at hmem
  rcases hmem with rfl | rfl | rfl | rfl <;> revert htrace hservice <;> decide

end Raglogs.FailedEdges
