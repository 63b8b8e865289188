import Mathlib.Algebra.Field.Defs
import Mathlib.Algebra.Field.Rat
import Mathlib.Algebra.Order.Ring.Nat
import Mathlib.Analysis.SpecialFunctions.Log.Basic
import Raglogs.Collections
import Raglogs.Dicts
import Raglogs.Doubles
import Raglogs.LogEntries
import Raglogs.Triggers

/-!
Clusters and their scores. The score is a sum of a severity average, logarithms
and a bonus. The arithmetic is a parameter without laws, so that the results hold of
doubles, whose sums depend on the order of the terms; the logarithm and the
configured severity weights are parameters as well.
-/

namespace Raglogs.Clusters

open Collections Dicts LogEntries Text Triggers

/-- The operations on floats that the scores use. -/
class ScoreArithmetic (K : Type) extends Zero K, One K, Add K, Mul K, Div K, NatCast K where
  half : K
  /-- The quotient of two integers. -/
  quotient : ℕ → ℕ → K
  /-- A span of microseconds, in seconds. -/
  seconds : ℤ → K

/-- Exact arithmetic. -/
@[reducible]
instance (priority := low) exactScores {K : Type} [Field K] : ScoreArithmetic K where
  half := 1 / ((2 : ℕ) : K)
  quotient n m := (n : K) / (m : K)
  seconds t := (t : K) / ((1000000 : ℕ) : K)

/-- A double, as the rational number it is. -/
def Double : Type := ℚ

namespace Double

def toRat (x : Double) : ℚ := x

/-- The double next to a number. -/
def round (x : ℚ) : Double := Doubles.roundDouble x

instance : LinearOrder Double := inferInstanceAs (LinearOrder ℚ)

/-- Each operation rounds the exact result. -/
instance : ScoreArithmetic Double where
  zero := round 0
  one := round 1
  add x y := round (x.toRat + y.toRat)
  mul x y := round (x.toRat * y.toRat)
  div x y := round (x.toRat / y.toRat)
  natCast n := round n
  half := round (1 / 2)
  quotient n m := round ((n : ℚ) / (m : ℚ))
  seconds t := round ((t : ℚ) / 1000000)

/-- The natural logarithm of the whole numbers up to seven, as Python's math.log gives it. -/
def log (x : Double) : Double :=
  if x = round 2 then round 0.6931471805599453
  else if x = round 3 then round 1.0986122886681098
  else if x = round 4 then round 1.3862943611198906
  else if x = round 5 then round 1.6094379124341003
  else if x = round 6 then round 1.791759469228055
  else if x = round 7 then round 1.9459101490553132
  else round 0

end Double

/-- The configured severity weights. -/
structure SeverityWeights (K : Type) where
  fatal : K
  error : K
  warn : K
  info : K
  debug : K

/-- What a score needs besides the counts. -/
structure Scoring (K : Type) where
  log : K → K
  weights : SeverityWeights K
  lowering : Lowering

/-- One cluster of log lines that share a fingerprint. -/
structure ClusterData (K : Type) where
  fingerprint : String
  representativeMessage : String
  count : ℕ
  services : Counter String
  levels : Counter String
  /-- The level names, in the order in which they were entered. -/
  levelOrder : List String
  firstSeen : Option Timestamp
  lastSeen : Option Timestamp
  baselineCount : ℕ
  changeRatio : K
  importanceScore : K
  isTrigger : Bool
  logEntryIds : List EntryId
  mergedFingerprints : List String
  errorServiceCounts : Counter String
deriving DecidableEq

variable {K : Type} [ScoreArithmetic K]

namespace Scoring

/-- The level-name table of the severity weights; other levels weigh 1. -/
def severityWeight (s : Scoring K) (level : String) : K :=
  match s.lowering.lower level with
  | "fatal" | "critical" => s.weights.fatal
  | "error" | "err" => s.weights.error
  | "warn" | "warning" => s.weights.warn
  | "info" => s.weights.info
  | "debug" | "trace" => s.weights.debug
  | _ => 1

/-- The average weight over a levels distribution, added up in the order of its entries. -/
def getSeverityWeight (s : Scoring K) (levelsDistribution : Counter String)
    (levelOrder : List String) : K :=
  if levelsDistribution = ∅ then 1
  else
    let total := ((items levelsDistribution).map Prod.snd).sum
    if total = 0 then 1
    else levelOrder.foldl (fun weighted level => weighted + s.severityWeight level *
      ScoreArithmetic.quotient (count levelsDistribution level) total) 0

def computeImportanceScore (s : Scoring K) (count : ℕ) (levelsDistribution : Counter String)
    (levelOrder : List String) (changeRatio : K) (servicesCount : ℕ)
    (isTriggerCorrelated : Bool) : K :=
  let severity := s.getSeverityWeight levelsDistribution levelOrder
  let logCount := s.log ((count + 1 : ℕ) : K)
  let changeWeight := s.log (changeRatio + 1)
  let spreadWeight := s.log ((servicesCount + 1 : ℕ) : K) * ScoreArithmetic.half
  let triggerWeight := if isTriggerCorrelated then ((2 : ℕ) : K) else 0
  severity + logCount + changeWeight + spreadWeight + triggerWeight

/-- The importance that the other fields of a cluster give. -/
def importanceOf (s : Scoring K) (c : ClusterData K) : K :=
  s.computeImportanceScore c.count c.levels c.levelOrder c.changeRatio (items c.services).card
    c.isTrigger

end Scoring

/-! The order of the shares. -/

variable (K) in
/-- A sum does not depend on the order of its terms, as in exact arithmetic. -/
def OrderFreeSums : Prop := ∀ x y z : K, x + y + z = x + z + y

theorem orderFreeSums_exact {F : Type} [Field F] : OrderFreeSums F := add_right_comm

theorem Scoring.getSeverityWeight_perm (s : Scoring K) (hsums : OrderFreeSums K)
    (levels : Counter String) {order order' : List String} (h : order.Perm order') :
    s.getSeverityWeight levels order = s.getSeverityWeight levels order' := by
  unfold getSeverityWeight
  split
  · rfl
  · dsimp only
    split
    · rfl
    · exact h.foldl_eq' (fun _ _ _ _ _ => hsums _ _ _) 0

/-- The severity of a cluster is the same in every order of its levels. -/
def SumSettled (s : Scoring K) (c : ClusterData K) : Prop :=
  ∀ order : List String, order.Perm c.levelOrder →
    s.getSeverityWeight c.levels order = s.getSeverityWeight c.levels c.levelOrder

theorem sumSettled_of_orderFree (s : Scoring K) (hsums : OrderFreeSums K) (c : ClusterData K) :
    SumSettled s c := fun _ h => s.getSeverityWeight_perm hsums c.levels h

/-- Scoring with the default severity weights. -/
noncomputable def defaultScoring : Scoring ℝ where
  log := Real.log
  weights := { fatal := 5, error := 4, warn := 3, info := 1, debug := 1 / 2 }
  lowering := asciiLowering

/-- Scoring in doubles, for small whole numbers. -/
def doubleScoring : Scoring Double where
  log := Double.log
  weights := ⟨Double.round 5, Double.round 4, Double.round 3, Double.round 1, Double.round 0.5⟩
  lowering := asciiLowering

/-- The change ratio, smoothed so that an empty baseline does not divide by zero. -/
def computeChangeRatio (currentCount baselineCount : ℕ) : K :=
  ScoreArithmetic.quotient (currentCount + 1) (baselineCount + 1)

/-- The grouped rows of one fingerprint; the count is set by the aggregation only. -/
structure RowGroup where
  messages : List String
  services : Counter String
  levels : Counter String
  levelOrder : List String
  errorServices : Counter String
  timestamps : List Timestamp
  ids : List EntryId
  count : Option ℕ

/-- The message that occurs most often, the earliest one among equals. -/
def mostCommon (messages : List String) : Option String :=
  ((groupOn id messages).foldl (fun (best : Option (String × ℕ)) p =>
    match best with
    | none => some (p.1, p.2.length)
    | some (m, n) => if n < p.2.length then some (p.1, p.2.length) else some (m, n)) none).map
    Prod.fst

/-- Build one cluster from one fingerprint's grouped rows. -/
def buildClusterData (s : Scoring K) (fingerprint : String) (group : RowGroup)
    (baselineCounts : Counter String) : ClusterData K :=
  let count := group.count.getD group.ids.length
  let timestamps := sortOn id group.timestamps
  let baselineCount := Dicts.count baselineCounts fingerprint
  let changeRatio := computeChangeRatio count baselineCount
  let repMsg := (mostCommon group.messages).getD ""
  let isTrigger := isTriggerMessage repMsg
  { fingerprint := fingerprint
    representativeMessage := repMsg
    count := count
    services := group.services
    levels := group.levels
    levelOrder := group.levelOrder
    firstSeen := timestamps.head?
    lastSeen := timestamps.getLast?
    baselineCount := baselineCount
    changeRatio := changeRatio
    importanceScore := s.computeImportanceScore count group.levels group.levelOrder changeRatio
      (items group.services).card isTrigger
    isTrigger := isTrigger
    logEntryIds := group.ids
    mergedFingerprints := []
    errorServiceCounts := group.errorServices }

end Raglogs.Clusters
