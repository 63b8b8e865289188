import Mathlib.Data.Int.SuccPred
import Raglogs.Clustering
import Raglogs.StructuralSignals

/-!
Services that went silent in the traces: their spans come at a fraction of the rate of the
baseline. One path counts the spans of two windows in a loop, the other one asks the database
for the counts of half-open intervals, and both decide on the counts alone.
-/

namespace Raglogs.SilentServices

open Collections Dicts Durations GroupingLaws LogEntries SortedDicts Telemetry Text

variable {K : Type} [Arithmetic K] [Mul K] (roundTo4 : K → K)

def atLeastOne (x : K) : K := if x < 1 then 1 else x

/-- A time span in seconds, and one second for a shorter one. -/
def flooredSeconds (start stop : Timestamp) : K := atLeastOne (Arithmetic.seconds (stop - start))

def minBaselineSpans : ℕ := 5

def minExpectedIncident : ℕ := 5

/-- The fraction of the baseline rate that a silent service does not exceed. -/
def collapseFraction : K := ((1 : ℕ) : K) / ((5 : ℕ) : K)

/-- The counts of a service that was baselined, expected, and went silent. -/
def Collapses (base inc : ℕ) (pre post : K) : Prop :=
  ¬ base < minBaselineSpans ∧ ¬ (base : K) / pre * post < (minExpectedIncident : K) ∧
    (inc : K) / post ≤ collapseFraction * ((base : K) / pre)

instance (base inc : ℕ) (pre post : K) : Decidable (Collapses base inc pre post) :=
  inferInstanceAs (Decidable (_ ∧ _ ∧ _))

/-- The services that went silent, each with the strength of its collapse. -/
def collapsedServices (baselineCounts incidentCounts : Counter String)
    (baselineSeconds incidentSeconds : K) : Dict String K :=
  let pre := atLeastOne baselineSeconds
  let post := atLeastOne incidentSeconds
  dictOf ((sortedItems baselineCounts).filterMap fun entry =>
    let inc := count incidentCounts entry.1
    if Collapses entry.2 inc pre post then
      some (entry.1, roundTo4 (1 - (inc : K) / post / ((entry.2 : K) / pre)))
    else none)

/-- The counts of the loop. -/
structure SpanCounts where
  baseline : Counter String
  incident : Counter String

def countSpan (baselineStart incidentStart incidentEnd : Timestamp) (counts : SpanCounts)
    (sp : TraceSpan K) : SpanCounts :=
  match truthy sp.service, sp.startTime with
  | some s, some ts =>
      if baselineStart ≤ ts ∧ ts < incidentStart then
        { counts with baseline := bump counts.baseline s 1 }
      else if incidentStart ≤ ts ∧ ts ≤ incidentEnd then
        { counts with incident := bump counts.incident s 1 }
      else counts
  | _, _ => counts

/-- The silent services of some spans, counted in a loop. -/
def detectAbsence (spans : List (TraceSpan K))
    (baselineStart incidentStart incidentEnd : Timestamp) : Dict String K :=
  let counts := spans.foldl (countSpan baselineStart incidentStart incidentEnd) ⟨∅, ∅⟩
  collapsedServices roundTo4 counts.baseline counts.incident
    (flooredSeconds baselineStart incidentStart) (flooredSeconds incidentStart incidentEnd)

/-- The spans of a scope that start in a half-open interval. -/
def spansBetween (spans : List (TraceSpan K)) (scope : String) (lo hi : Timestamp) :
    List (TraceSpan K) :=
  spans.filter fun sp => sp.scope == scope && sp.startTime.any fun ts => lo ≤ ts && ts < hi

/-- The spans of each service that is not null. -/
def countsBetween (spans : List (TraceSpan K)) (scope : String) (lo hi : Timestamp) :
    Counter String :=
  tally ((spansBetween spans scope lo hi).filterMap TraceSpan.service)

/-- The last instant of the calendar. -/
def lastInstant : Timestamp := 253402300799999999

/-- The start of the baseline of an incident window. -/
def baselineStart (lowering : Lowering) (windowStart : Timestamp) (baselineWindow : String) :
    Except WindowError Timestamp := do
  let duration ← parseDuration lowering baselineWindow
  if windowStart - duration < firstInstant then .error .outOfRange
  else return windowStart - duration

/-- The silent services of a scope, counted by the database. A duration that does not parse
gives none. -/
def silentServices (lowering : Lowering) (spans : List (TraceSpan K)) (scope : String)
    (windowStart windowEnd : Timestamp) (baselineWindow : String) :
    Except WindowError (List String) :=
  match baselineStart lowering windowStart baselineWindow with
  | .error .outOfRange => .error .outOfRange
  | .error (.tooLong message) => .error (.tooLong message)
  | .error _ => .ok []
  | .ok start =>
      let baselineCounts := countsBetween spans scope start windowStart
      if baselineCounts = ∅ then .ok []
      -- The end of the window is included, by one microsecond more.
      else if lastInstant < windowEnd + 1 then .error .outOfRange
      else .ok (inOrder (collapsedServices roundTo4 baselineCounts
        (countsBetween spans scope windowStart (windowEnd + 1))
        (flooredSeconds start windowStart) (flooredSeconds windowStart windowEnd)).keys)

/-! What is counted. -/

/-- A span of one service that starts in a half-open interval. -/
def counted (name : String) (lo hi : Timestamp) (sp : TraceSpan K) : Bool :=
  sp.service == some name && sp.startTime.any fun ts => lo ≤ ts && ts < hi

/-- The spans of a scope. -/
def spansOf (spans : List (TraceSpan K)) (scope : String) : List (TraceSpan K) :=
  spans.filter fun sp => sp.scope == scope

omit [Arithmetic K] [Mul K] in
theorem count_countsBetween (spans : List (TraceSpan K)) (scope : String) (lo hi : Timestamp)
    (name : String) :
    count (countsBetween spans scope lo hi) name =
      (spansOf spans scope).countP (counted name lo hi) := by
  have hservice : ∀ l : List (TraceSpan K), (l.filterMap TraceSpan.service).count name =
      l.countP (fun sp => sp.service == some name) := by
    intro l
    induction l with
    | nil => rfl
    | cons sp rest ih =>
      rw [List.countP_cons, ← ih]
      cases hs : sp.service <;> simp [hs, List.count_cons]
  rw [countsBetween, count_tally, hservice, spansBetween, spansOf, List.countP_filter,
    List.countP_filter]
  congr 1
  funext sp
  rw [counted, Bool.and_comm (sp.scope == scope), Bool.and_assoc]

omit [Arithmetic K] [Mul K] in
/-- One round of the loop, for one service. -/
theorem count_countSpan (start windowStart windowEnd : Timestamp) (counts : SpanCounts)
    (sp : TraceSpan K) {name : String} (hname : name ≠ "") :
    count (countSpan start windowStart windowEnd counts sp).baseline name =
        count counts.baseline name + (if counted name start windowStart sp then 1 else 0) ∧
      count (countSpan start windowStart windowEnd counts sp).incident name =
        count counts.incident name +
          (if counted name windowStart (windowEnd + 1) sp then 1 else 0) := by
  rw [countSpan, counted, counted]
  cases hservice : sp.service with
  | none => simp
  | some s =>
    by_cases hs : s = ""
    · have hne : ¬ "" = name := fun h => hname h.symm
      simp [truthy, hs, hne]
    · have htruthy : truthy (some s) = some s := truthy_eq_some.mpr ⟨rfl, hs⟩
      rw [htruthy]
      cases sp.startTime with
      | none => simp
      | some ts =>
        by_cases hbase : start ≤ ts ∧ ts < windowStart
        · have hno : ¬ windowStart ≤ ts := not_le_of_gt hbase.2
          simp [hbase, hno, count_bump, eq_comm (a := s)]
        · by_cases hinc : windowStart ≤ ts ∧ ts ≤ windowEnd
          · have hno : ¬ ts < windowStart := not_lt_of_ge hinc.1
            simp [hinc, hno, count_bump, eq_comm (a := s)]
          · simp [hbase, hinc]

omit [Arithmetic K] [Mul K] in
/-- The loop counts the same spans as the database, for every name. -/
theorem count_foldl_countSpan (start windowStart windowEnd : Timestamp) {name : String}
    (hname : name ≠ "") (spans : List (TraceSpan K)) (counts : SpanCounts) :
    count (spans.foldl (countSpan start windowStart windowEnd) counts).baseline name =
        count counts.baseline name + spans.countP (counted name start windowStart) ∧
      count (spans.foldl (countSpan start windowStart windowEnd) counts).incident name =
        count counts.incident name + spans.countP (counted name windowStart (windowEnd + 1)) := by
  induction spans generalizing counts with
  | nil => exact ⟨rfl, rfl⟩
  | cons sp rest ih =>
    obtain ⟨hbase, hinc⟩ := ih (countSpan start windowStart windowEnd counts sp)
    obtain ⟨hstepBase, hstepInc⟩ := count_countSpan start windowStart windowEnd counts sp hname
    rw [List.foldl_cons, List.countP_cons, List.countP_cons, hbase, hinc, hstepBase, hstepInc]
    omega

omit [Arithmetic K] [Mul K] in
/-- Without a name nothing is counted. -/
theorem count_foldl_countSpan_empty (start windowStart windowEnd : Timestamp)
    (spans : List (TraceSpan K)) (counts : SpanCounts) :
    count (spans.foldl (countSpan start windowStart windowEnd) counts).baseline "" =
      count counts.baseline "" := by
  have hstep : ∀ (counts : SpanCounts) (sp : TraceSpan K),
      count (countSpan start windowStart windowEnd counts sp).baseline "" =
        count counts.baseline "" := by
    intro counts sp
    rw [countSpan]
    cases hservice : truthy sp.service with
    | none => rfl
    | some s =>
      have hs : ¬ "" = s := fun h => (truthy_eq_some.mp hservice).2 h.symm
      cases sp.startTime with
      | none => rfl
      | some ts =>
        dsimp only
        split
        · simp [count_bump, hs]
        · split <;> rfl
  induction spans generalizing counts with
  | nil => rfl
  | cons sp rest ih => rw [List.foldl_cons, ih, hstep]

theorem collapses_count {base inc : ℕ} {pre post : K} (h : Collapses base inc pre post) :
    base ≠ 0 := by
  rintro rfl
  exact h.1 (by decide)

/-- The services that went silent are decided by their counts. -/
theorem mem_collapsedServices {baselineCounts incidentCounts : Counter String} {pre post : K}
    {name : String} :
    name ∈ collapsedServices roundTo4 baselineCounts incidentCounts pre post ↔
      Collapses (count baselineCounts name) (count incidentCounts name)
        (atLeastOne pre) (atLeastOne post) := by
  rw [collapsedServices, mem_dictOf, List.map_filterMap, List.mem_filterMap]
  constructor
  · rintro ⟨⟨k, n⟩, hentry, hkept⟩
    have hcount : count baselineCounts k = n := by rw [count, mem_sortedItems.mp hentry]; rfl
    by_cases hcollapses : Collapses n (count incidentCounts k) (atLeastOne pre) (atLeastOne post)
    · rw [if_pos hcollapses] at hkept
      obtain rfl := Option.some.inj hkept
      rwa [hcount]
    · rw [if_neg hcollapses] at hkept
      cases hkept
  · intro hcollapses
    cases hlookup : baselineCounts.lookup name with
    | none =>
      have hzero : count baselineCounts name = 0 := by rw [count, hlookup]; rfl
      exact absurd hzero (collapses_count hcollapses)
    | some n =>
      have hcount : count baselineCounts name = n := by rw [count, hlookup]; rfl
      rw [hcount] at hcollapses
      exact ⟨(name, n), mem_sortedItems.mpr hlookup, by rw [if_pos hcollapses]; rfl⟩

/-! The two paths. -/

section Paths

variable (spans : List (TraceSpan K)) (scope : String) (start windowStart windowEnd : Timestamp)

/-- A name that collapsed by the counts of its spans. -/
def Silent (name : String) : Prop :=
  Collapses ((spansOf spans scope).countP (counted name start windowStart))
    ((spansOf spans scope).countP (counted name windowStart (windowEnd + 1)))
    (atLeastOne (flooredSeconds start windowStart : K))
    (atLeastOne (flooredSeconds windowStart windowEnd))

theorem mem_detectAbsence {name : String} :
    name ∈ (detectAbsence roundTo4 (spansOf spans scope) start windowStart windowEnd).keys ↔
      name ≠ "" ∧ Silent spans scope start windowStart windowEnd name := by
  rw [detectAbsence, Finmap.mem_keys, mem_collapsedServices]
  by_cases hname : name = ""
  · refine iff_of_false ?_ (fun h => h.1 hname)
    intro hcollapses
    refine collapses_count hcollapses ?_
    rw [hname, count_foldl_countSpan_empty, count_empty]
  · obtain ⟨hbase, hinc⟩ := count_foldl_countSpan start windowStart windowEnd hname
      (spansOf spans scope) ⟨∅, ∅⟩
    rw [hbase, hinc, count_empty, Nat.zero_add, Nat.zero_add, Silent]
    exact (and_iff_right hname).symm

theorem mem_collapsedServices_between {name : String} :
    name ∈ (collapsedServices roundTo4 (countsBetween spans scope start windowStart)
        (countsBetween spans scope windowStart (windowEnd + 1))
        (flooredSeconds start windowStart) (flooredSeconds windowStart windowEnd)).keys ↔
      Silent spans scope start windowStart windowEnd name := by
  rw [Finmap.mem_keys, mem_collapsedServices, count_countsBetween, count_countsBetween, Silent]

omit [Arithmetic K] [Mul K] in
theorem countsBetween_eq_empty_iff {lo hi : Timestamp} :
    countsBetween spans scope lo hi = ∅ ↔
      ∀ sp ∈ spansBetween spans scope lo hi, sp.service = none := by
  constructor
  · intro hempty sp hsp
    cases hservice : sp.service with
    | none => rfl
    | some s =>
      have hmem : s ∈ countsBetween spans scope lo hi :=
        (mem_tally _ s).mpr (List.mem_filterMap.mpr ⟨sp, hsp, hservice⟩)
      rw [hempty] at hmem
      exact absurd hmem Finmap.notMem_empty
  · intro hnone
    rw [countsBetween, List.filterMap_eq_nil_iff.mpr hnone]
    rfl

/-- Sets in order are equal as sets. -/
theorem inOrder_eq_iff {s t : Finset String} : inOrder s = inOrder t ↔ s = t := by
  refine ⟨fun h => ?_, fun h => h ▸ rfl⟩
  ext name
  rw [← mem_inOrder, h, mem_inOrder]

/-- The baseline has a span with a service, and the end of the window has no successor. -/
def Overflows : Prop :=
  ¬ windowEnd < lastInstant ∧
    ∃ sp ∈ spansBetween spans scope start windowStart, sp.service ≠ none

/-- The services of the loop, from the baseline window as it is written. -/
def absentServices (lowering : Lowering) (baselineWindow : String) :
    Except WindowError (List String) := do
  let start ← baselineStart lowering windowStart baselineWindow
  return inOrder (detectAbsence roundTo4 (spansOf spans scope) start windowStart windowEnd).keys

/-- The two paths, for a baseline that starts in the calendar. -/
theorem silentServices_eq_iff_of_start {lowering : Lowering} {baselineWindow : String}
    (hstart : baselineStart lowering windowStart baselineWindow = .ok start) :
    silentServices roundTo4 lowering spans scope windowStart windowEnd baselineWindow =
        absentServices roundTo4 spans scope windowStart windowEnd lowering baselineWindow ↔
      ¬ Overflows spans scope start windowStart windowEnd ∧
        ¬ Silent spans scope start windowStart windowEnd "" := by
  have habsent : absentServices roundTo4 spans scope windowStart windowEnd lowering
      baselineWindow = .ok (inOrder (detectAbsence roundTo4 (spansOf spans scope) start
        windowStart windowEnd).keys) := by
    rw [absentServices, hstart]
    rfl
  rw [silentServices, hstart, habsent]
  by_cases hempty : countsBetween spans scope start windowStart = ∅
  · have hnone := (countsBetween_eq_empty_iff spans scope).mp hempty
    have hquiet : ∀ name, ¬ Silent spans scope start windowStart windowEnd name := by
      intro name hname
      refine collapses_count hname ?_
      rw [← count_countsBetween, hempty, count_empty]
    have hkeys : (detectAbsence roundTo4 (spansOf spans scope) start windowStart
        windowEnd).keys = ∅ :=
      Finset.eq_empty_of_forall_notMem fun name hname =>
        hquiet name ((mem_detectAbsence roundTo4 spans scope start windowStart windowEnd).mp
          hname).2
    refine iff_of_true ?_ ⟨?_, hquiet ""⟩
    · rw [hkeys]
      exact (if_pos hempty).trans (congrArg Except.ok (Finset.sort_empty _).symm)
    · rintro ⟨-, sp, hsp, hservice⟩
      exact hservice (hnone sp hsp)
  · have hsome : ∃ sp ∈ spansBetween spans scope start windowStart, sp.service ≠ none := by
      by_contra hnone
      push Not at hnone
      exact hempty ((countsBetween_eq_empty_iff spans scope).mpr hnone)
    refine (iff_of_eq (congrArg (· = _) (if_neg hempty))).trans ?_
    by_cases hend : windowEnd < lastInstant
    · have hnext : ¬ lastInstant < windowEnd + 1 := fun h => absurd (Int.lt_add_one_iff.mp h)
        (not_le_of_gt hend)
      have hfits : ¬ Overflows spans scope start windowStart windowEnd := fun h => h.1 hend
      rw [if_neg hnext, Except.ok.injEq, inOrder_eq_iff, Finset.ext_iff]
      simp only [mem_collapsedServices_between, mem_detectAbsence]
      constructor
      · exact fun h => ⟨hfits, fun hsilent => ((h "").mp hsilent).1 rfl⟩
      · rintro ⟨-, hquiet⟩ name
        exact ⟨fun h => ⟨fun hname => hquiet (hname ▸ h), h⟩, And.right⟩
    · have hnext : lastInstant < windowEnd + 1 := Int.lt_add_one_iff.mpr (not_lt.mp hend)
      rw [if_pos hnext]
      exact iff_of_false (fun h => nomatch h) fun h => h.1 ⟨hend, hsome⟩

/-- Both paths report the same services exactly when the end of the window can be moved and the
empty name did not collapse itself. -/
theorem silentServices_eq_iff (lowering : Lowering) (baselineWindow : String) {duration : ℤ}
    (hparse : parseDuration lowering baselineWindow = .ok duration) :
    silentServices roundTo4 lowering spans scope windowStart windowEnd baselineWindow =
        absentServices roundTo4 spans scope windowStart windowEnd lowering baselineWindow ↔
      (firstInstant ≤ windowStart - duration →
        ¬ Overflows spans scope (windowStart - duration) windowStart windowEnd ∧
          ¬ Silent spans scope (windowStart - duration) windowStart windowEnd "") := by
  have hstart : baselineStart lowering windowStart baselineWindow =
      if windowStart - duration < firstInstant then .error .outOfRange
      else .ok (windowStart - duration) := by
    rw [baselineStart, hparse]
    rfl
  by_cases hcalendar : windowStart - duration < firstInstant
  · rw [silentServices, absentServices, hstart, if_pos hcalendar]
    exact iff_of_true rfl fun h => absurd hcalendar (not_lt_of_ge h)
  · rw [if_neg hcalendar] at hstart
    rw [silentServices_eq_iff_of_start roundTo4 spans scope _ windowStart windowEnd hstart]
    exact ⟨fun h _ => h, fun h => h (not_lt.mp hcalendar)⟩

end Paths

instance : Mul (Exact ℚ) := inferInstanceAs (Mul ℚ)

/-- Five spans without a name in the hour before a window, and none in it. -/
def namelessSpans : List (TraceSpan (Exact ℚ)) :=
  List.replicate 5 ⟨none, none, none, some "", none, some 5, none, none, "default"⟩

/-- Six spans of a service in that hour, and one of another service before and in the window. -/
def namedSpans : List (TraceSpan (Exact ℚ)) :=
  List.replicate 6 ⟨none, none, none, some "cart", none, some 5, none, none, "default"⟩ ++
    [⟨none, none, none, some "db", none, some 7, none, none, "default"⟩,
      ⟨none, none, none, some "db", none, some 3600000001, none, none, "default"⟩]

/-- The service that fell silent is reported on both paths. -/
theorem silentServices_eq_of_named :
    silentServices id asciiLowering namedSpans "default" 3600000000 7200000000 "1h" =
        absentServices id namedSpans "default" 3600000000 7200000000 asciiLowering "1h" ∧
      Silent namedSpans "default" 0 3600000000 7200000000 "cart" := by
  constructor
  · refine (silentServices_eq_iff id namedSpans "default" 3600000000 7200000000 asciiLowering "1h"
      parseDuration_hour).mpr fun _ => ⟨fun h => h.1 (by decide), fun h => ?_⟩
    exact collapses_count (K := Exact ℚ) h (by decide +kernel)
  · rw [Silent]
    decide +kernel

/-- The database path reports the empty name. -/
theorem silentServices_nameless :
    silentServices id asciiLowering namelessSpans "default" 3600000000 7200000000 "1h" ≠
      absentServices id namelessSpans "default" 3600000000 7200000000 asciiLowering "1h" := by
  intro heq
  have hstart : baselineStart asciiLowering 3600000000 "1h" = .ok 0 := by
    rw [baselineStart, parseDuration_hour]
    rfl
  refine ((silentServices_eq_iff_of_start id namelessSpans "default" 0 3600000000 7200000000
    hstart).mp heq).2 ?_
  rw [Silent]
  decide +kernel

end Raglogs.SilentServices
