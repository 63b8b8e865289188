import Raglogs.LogEntries
import Raglogs.Parsing
import Mathlib.Algebra.Order.Field.Basic
import Mathlib.Data.List.Sort

/-!
Telemetry rows, and what identifies a metric series. A stored number is finite or not;
the reducers compute with finite numbers only. The arithmetic is a parameter without
laws, so that what does not depend on rounding is proved for doubles as well.
-/

namespace Raglogs.Telemetry

open LogEntries Text

/-- The operations on numbers that the reducers use. -/
class Arithmetic (K : Type) extends Zero K, One K, Add K, Sub K, Div K, NatCast K, LE K, LT K where
  sum : List K → K
  isFinite : K → Bool
  /-- A span of microseconds, in seconds. -/
  seconds : ℤ → K
  [decidableLE : DecidableLE K]
  [decidableLT : DecidableLT K]

attribute [reducible, instance] Arithmetic.decidableLE Arithmetic.decidableLT

/-- The numbers of an ordered field, with exact arithmetic. -/
def Exact (K : Type) : Type := K

@[reducible]
def exactArithmetic (K : Type) [Field K] [LinearOrder K] : Arithmetic K where
  sum := List.sum
  isFinite _ := true
  seconds t := (t : K) / ((1000000 : ℕ) : K)

instance {K : Type} [Field K] [LinearOrder K] : Arithmetic (Exact K) := exactArithmetic K

/-- A stored number; infinities and NaN are not finite. -/
inductive Number (K : Type)
  | finite (x : K)
  | nonFinite

structure TraceSpan (K : Type) where
  traceId : Option String
  spanId : Option String
  parentSpanId : Option String
  service : Option String
  operation : Option String
  startTime : Option Timestamp
  durationMs : Option (Number K)
  statusCode : Option String
  scope : String

structure MetricSample (K : Type) where
  service : Option String
  metric : String
  value : Option (Number K)
  metricType : Option String
  ts : Option Timestamp
  attributes : Option Json
  scope : String

section Finite

variable {K : Type}

theorem Number.exists_finite {x : Option (Number K)} (hsome : x ≠ none)
    (hfinite : x ≠ some .nonFinite) : ∃ v, x = some (.finite v) := by
  cases x with
  | none => exact absurd rfl hsome
  | some n =>
    cases n with
    | finite v => exact ⟨v, rfl⟩
    | nonFinite => exact absurd rfl hfinite

/-- No duration is infinite or NaN. -/
def FiniteDurations (spans : List (TraceSpan K)) : Prop :=
  ∀ sp ∈ spans, sp.durationMs ≠ some .nonFinite

/-- No value is infinite or NaN. -/
def FiniteValues (samples : List (MetricSample K)) : Prop :=
  ∀ m ∈ samples, m.value ≠ some .nonFinite

end Finite

section Numbers

variable {K : Type} [Arithmetic K]

/-- A finite number that is not negative. -/
def Number.nonneg? : Number K → Option K
  | .finite x => if 0 ≤ x then some x else none
  | .nonFinite => none

/-- A finite number in [0, 1]. -/
def Number.rate? : Number K → Option K
  | .finite x => if 0 ≤ x ∧ x ≤ 1 then some x else none
  | .nonFinite => none

def mean (xs : List K) : K :=
  if xs.isEmpty then 0 else Arithmetic.sum xs / (xs.length : K)

/-- The middle of the sorted list, or the mean of the two in the middle. -/
def median (xs : List K) : K :=
  let sorted := xs.insertionSort (· ≤ ·)
  let n := sorted.length
  if n = 0 then 0
  else if n % 2 = 1 then sorted.getD (n / 2) 0
  else (sorted.getD (n / 2 - 1) 0 + sorted.getD (n / 2) 0) / ((2 : ℕ) : K)

/-- The first of the elements with the greatest key. -/
def largestOn {α : Type} (key : α → K) (first : α) (others : List α) : α :=
  others.foldl (fun best a => if key best < key a then a else best) first

/-- The greatest of some numbers, or a default. -/
def maxOr (default : K) : List K → K
  | [] => default
  | x :: xs => largestOn id x xs

end Numbers

/-! Series identity. -/

/-- How values are written out: lower case, a document with sorted keys, the text of a
value. -/
structure Rendering where
  lowering : Lowering
  dumps : Json → String
  text : Json → String

/-- Resource attributes that each name one reporting process. -/
def instanceAttrs : List String := ["service.instance.id", "k8s.pod.uid", "container.id"]

/-- Attributes that name one process only together. -/
def instanceAttrPairs : List (String × String) := [("host.name", "process.pid")]

def instanceKeys : List String :=
  instanceAttrs ++ instanceAttrPairs.flatMap (fun pair => [pair.1, pair.2])

section Identity

variable (rd : Rendering)

/-- The full identity of a series, or none when it was never recorded. -/
def seriesKey (attributes : Option Json) : Option String := attributes.map rd.dumps

/-- The value of a key, when a truth test accepts it. -/
def truthyField (fields : List (String × Json)) (key : String) : Option Json :=
  (fields.lookup key).filter Parsing.isTruthy

/-- The reporting instance that the attributes name. -/
def instanceIdentity : Option Json → Option String
  | some (.obj fields) =>
      let single := instanceAttrs.findSome? (fun key =>
        (truthyField fields key).map (fun value => key ++ "=" ++ rd.text value))
      let paired := instanceAttrPairs.findSome? (fun pair =>
        match truthyField fields pair.1, truthyField fields pair.2 with
        | some a, some b =>
            some (pair.1 ++ "=" ++ rd.text a ++ "," ++ pair.2 ++ "=" ++ rd.text b)
        | _, _ => none)
      single.orElse (fun _ => paired)
  | _ => none

/-- The identity without the instance. Attributes that are no object name no instance,
and are not asked for a signature. -/
def datapointSignature : Option Json → Option String
  | some (.obj fields) =>
      some (rd.dumps (.obj (fields.filter (fun field => !instanceKeys.contains field.1))))
  | _ => none

end Identity

end Raglogs.Telemetry
