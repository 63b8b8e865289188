import Raglogs.Durations
import Raglogs.Grouping
import Raglogs.Normalization
import Raglogs.Ranking
import Raglogs.SemanticMerge

/-!
Comparison of two windows by their clusters. Retry lines and queue growth are noise,
and collapse into one entry each. What remains is compared by fingerprint and sorted
into five buckets, by a quotient of doubles where both windows have the fingerprint.
The triggers are compared by their messages without a trailing version.
-/

namespace Raglogs.Differ

open Collections Dicts Doubles Durations LogEntries Text Clusters Grouping Ranking SemanticMerge
open Regex Regex.Pattern

variable {K : Type} [ScoreArithmetic K]

/-- An integer or a quotient out of the range of the doubles. -/
inductive OverflowError
  | conversion
  | division
deriving DecidableEq

def OverflowError.message : OverflowError → String
  | .conversion => "int too large to convert to float"
  | .division => "integer division result too large for a float"

/-- The double of a count. -/
def toFloat (n : ℕ) : Except OverflowError ℚ :=
  if 2 ^ 1024 ≤ roundDouble n then .error .conversion else .ok (roundDouble n)

/-- The double of a quotient of two counts. -/
def trueDiv (a b : ℕ) : Except OverflowError ℚ :=
  if 2 ^ 1024 ≤ roundDouble (a / b) then .error .division else .ok (roundDouble (a / b))

/-- A count that moved by this factor has changed. -/
def changeThreshold : ℚ := 3 / 2

/-! Noise. -/

section Noise

variable (isWord : Char → Bool)

/-- A repeated delivery attempt. -/
def retryPattern : Pattern :=
  anyOf [concat [.boundary isWord, lit "retry", opt (lit "ing"), .boundary isWord],
    concat [.boundary isWord, lit "retries", .boundary isWord],
    concat [.boundary isWord, lit "attempt", spaces, plus digit]]

def isRetry (message : String) : Bool := (retryPattern isWord).isMatch message

/-- At most thirty characters of one line. -/
def gap : Pattern := inRange 0 30 (.char (fun c => c != '\n'))

def queueGrowthPattern : Pattern :=
  concat [lit "queue", gap, anyOf [lit "growing", lit "pending", lit "backlog"]]

def growthQueuePattern : Pattern :=
  concat [anyOf [lit "pending", lit "backlog"], gap, lit "queue"]

def isQueueGrowth (message : String) : Bool :=
  queueGrowthPattern.isMatch message || growthQueuePattern.isMatch message

/-- Collapse the clusters of one kind of noise. -/
def mergeNoise (group : List (ClusterData K)) (label key : String) :
    Except OverflowError (ClusterData K) := do
  let total := (group.map ClusterData.count).sum
  let _ ← toFloat total
  return {
    fingerprint := "__collapsed_" ++ (if key = "" then label else key) ++ "__"
    representativeMessage := label
    count := total
    services := sumCounts (group.map ClusterData.services)
    levels := ∅
    levelOrder := []
    firstSeen := (group.filterMap ClusterData.firstSeen).min?
    lastSeen := (group.filterMap ClusterData.lastSeen).max?
    baselineCount := 0
    changeRatio := (total : K)
    importanceScore := (total : K)
    isTrigger := false
    logEntryIds := []
    mergedFingerprints := []
    errorServiceCounts := ∅ }

/-- One entry for the clusters of one kind of noise, if there are any. -/
def noiseEntry (group : List (ClusterData K)) (label key : String) :
    Except OverflowError (List (ClusterData K)) :=
  if group = [] then .ok [] else do return [← mergeNoise group label key]

def retryGroup (clusters : List (ClusterData K)) : List (ClusterData K) :=
  clusters.filter (fun c => isRetry isWord c.representativeMessage)

def queueGroup (clusters : List (ClusterData K)) : List (ClusterData K) :=
  clusters.filter (fun c =>
    !isRetry isWord c.representativeMessage && isQueueGrowth c.representativeMessage)

def normalGroup (clusters : List (ClusterData K)) : List (ClusterData K) :=
  clusters.filter (fun c =>
    !isRetry isWord c.representativeMessage && !isQueueGrowth c.representativeMessage)

def retryLabel (group : List (ClusterData K)) : String :=
  "Retry events (" ++ toString group.length ++ " distinct events, " ++
    toString (group.map ClusterData.count).sum ++ " total)"

/-- Merge noisy clusters into single entries; all others pass through. -/
def collapseClusters (clusters : List (ClusterData K)) :
    Except OverflowError (List (ClusterData K)) := do
  let retries ← noiseEntry (retryGroup isWord clusters) (retryLabel (retryGroup isWord clusters))
    "retries"
  let growth ← noiseEntry (queueGroup isWord clusters) "Queue growth" "queue_growth"
  return normalGroup isWord clusters ++ retries ++ growth

end Noise

/-! Entries of a comparison. -/

inductive Direction
  | new
  | disappeared
  | increased
  | decreased
  | stable
deriving DecidableEq

/-- One fingerprint of a comparison; a count is none where the window lacks it. -/
structure ClusterDiff where
  fingerprint : String
  message : String
  services : Finset String
  countA : Option ℕ
  countB : Option ℕ
deriving DecidableEq

def ClusterDiff.direction (d : ClusterDiff) : Except OverflowError Direction :=
  match d.countA, d.countB with
  | none, _ => .ok .disappeared
  | some _, none => .ok .new
  | some a, some b => do
      let ratio ← trueDiv a (max b 1)
      if changeThreshold ≤ ratio then return .increased
      else if ratio ≤ roundDouble (1 / changeThreshold) then return .decreased
      else return .stable

/-- A trigger candidate; its time is not compared. -/
structure TriggerCandidate where
  message : String
  service : Option String

inductive Side
  | a
  | b
deriving DecidableEq

structure TriggerDiff where
  message : String
  service : String
  onlyIn : Side
deriving DecidableEq

structure CompareResult where
  windowA : TimeWindow
  windowB : TimeWindow
  newClusters : List ClusterDiff
  disappearedClusters : List ClusterDiff
  increasedClusters : List ClusterDiff
  decreasedClusters : List ClusterDiff
  stableClusters : List ClusterDiff
  newTriggers : List TriggerDiff
  droppedTriggers : List TriggerDiff

/-! The comparison. -/

def byFingerprint (clusters : List (ClusterData K)) : Dict String (ClusterData K) :=
  dictOf (clusters.map (fun c => (c.fingerprint, c)))

/-- The entry of a fingerprint; window A gives message and services, where it has it. -/
def clusterDiff (mapA mapB : Dict String (ClusterData K)) (fp : String) : ClusterDiff :=
  let ca := mapA.lookup fp
  let cb := mapB.lookup fp
  { fingerprint := fp
    message := ((ca.or cb).map ClusterData.representativeMessage).getD ""
    services := ((ca.or cb).map (fun c => c.services.keys)).getD ∅
    countA := ca.map ClusterData.count
    countB := cb.map ClusterData.count }

/-- The entry of a fingerprint with its bucket. -/
def classify (mapA mapB : Dict String (ClusterData K)) (fp : String) :
    Except OverflowError (Direction × ClusterDiff) := do
  let diff := clusterDiff mapA mapB fp
  let direction ← diff.direction
  return (direction, diff)

/-- The entries of one bucket, in the order in which they were appended. -/
def appended (diffs : List (Direction × ClusterDiff)) (direction : Direction) :
    List ClusterDiff :=
  (diffs.filter (fun p => p.1 = direction)).map Prod.snd

/-- A version at the end of a message. -/
def versionPattern (isWord : Char → Bool) : Pattern :=
  concat [.boundary isWord, ofChar 'v', plus digit,
    .star (.char (fun c =>
      isDigit c || c == '.' || c == '-' || Normalization.inInterval 'a' 'z' c)),
    .finish]

def triggerKey (isWord : Char → Bool) (lowering : Lowering) (t : TriggerCandidate) : String :=
  strip ((versionPattern isWord).replaceAll (fun _ => "") (strip (lowering.lower t.message)))

/-- The triggers of one side whose keys the other side lacks. -/
def triggersOnly (isWord : Char → Bool) (lowering : Lowering) (side : Side)
    (triggers others : List TriggerCandidate) : List TriggerDiff :=
  (triggers.filter (fun t => !(others.map (triggerKey isWord lowering)).contains
    (triggerKey isWord lowering t))).map
      (fun t => ⟨t.message, (truthy t.service).getD "", side⟩)

/-- Diff two cluster sets by fingerprint; the set of fingerprints comes in some order. -/
def compareWindows (isWord : Char → Bool) (lowering : Lowering) (order : Shuffle String)
    (clustersA clustersB : List (ClusterData K)) (triggersA triggersB : List TriggerCandidate)
    (windowA windowB : TimeWindow) : Except OverflowError CompareResult := do
  let collapsedA ← collapseClusters isWord clustersA
  let collapsedB ← collapseClusters isWord clustersB
  let mapA := byFingerprint collapsedA
  let mapB := byFingerprint collapsedB
  let fps := order.1 (fromKeys
    (collapsedA.map ClusterData.fingerprint ++ collapsedB.map ClusterData.fingerprint))
  let diffs ← fps.mapM (classify mapA mapB)
  return {
    windowA := windowA
    windowB := windowB
    newClusters := sortDown (fun d => d.countA.getD 0) (appended diffs .new)
    disappearedClusters := sortDown (fun d => d.countB.getD 0) (appended diffs .disappeared)
    increasedClusters := sortDown (fun d => (d.countA.getD 0 : ℤ) - (d.countB.getD 0 : ℤ))
      (appended diffs .increased)
    decreasedClusters := sortDown (fun d => (d.countB.getD 0 : ℤ) - (d.countA.getD 0 : ℤ))
      (appended diffs .decreased)
    stableClusters := appended diffs .stable
    newTriggers := triggersOnly isWord lowering .a triggersA triggersB
    droppedTriggers := triggersOnly isWord lowering .b triggersB triggersA }

end Raglogs.Differ
