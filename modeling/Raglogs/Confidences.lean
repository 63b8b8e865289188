import Raglogs.EvidencePackets

/-!
How much an explanation is worth. The evidence earns points, and the points a label; where
triggers are found by their rarity they earn nothing, and no label is the highest one. A
calibrated probability has a label of its own.
-/

namespace Raglogs.Confidences

open Clusters EvidencePackets

inductive ConfidenceLabel
  | low
  | medium
  | mediumHigh
  | high
deriving DecidableEq

namespace ConfidenceLabel

def text : ConfidenceLabel → String
  | low => "low"
  | medium => "medium"
  | mediumHigh => "medium-high"
  | high => "high"

theorem text_ne_empty (label : ConfidenceLabel) : label.text ≠ "" := by
  cases label <;> decide

end ConfidenceLabel

structure ConfidenceSettings where
  countHigh : ℕ
  countLow : ℕ
  changeRatioHigh : ℚ
  changeRatioLow : ℚ
  pointsCountHigh : ℤ
  pointsCountLow : ℤ
  pointsChangeHigh : ℤ
  pointsChangeLow : ℤ
  pointsTrigger : ℤ
  pointsSecondary : ℤ
  pointsMultiservice : ℤ
  thresholdHigh : ℤ
  thresholdMediumHigh : ℤ
  thresholdMedium : ℤ
  calibratedHigh : ℚ
  calibratedMediumHigh : ℚ
  calibratedMedium : ℚ

def ConfidenceSettings.default : ConfidenceSettings where
  countHigh := 50
  countLow := 10
  changeRatioHigh := 10
  changeRatioLow := 3
  pointsCountHigh := 2
  pointsCountLow := 1
  pointsChangeHigh := 2
  pointsChangeLow := 1
  pointsTrigger := 2
  pointsSecondary := 1
  pointsMultiservice := 1
  thresholdHigh := 5
  thresholdMediumHigh := 4
  thresholdMedium := 2
  calibratedHigh := 4 / 5
  calibratedMediumHigh := 13 / 20
  calibratedMedium := 9 / 20

variable (s : ConfidenceSettings)

/-- The label of a calibrated probability. -/
def labelFromCalibratedProbability (p : ℚ) : ConfidenceLabel :=
  if s.calibratedHigh ≤ p then .high
  else if s.calibratedMediumHigh ≤ p then .mediumHigh
  else if s.calibratedMedium ≤ p then .medium
  else .low

def countPoints (count : ℕ) : ℤ :=
  if s.countHigh ≤ count then s.pointsCountHigh
  else if s.countLow ≤ count then s.pointsCountLow
  else 0

/-- A change counts only against a baseline. -/
def changePoints (baselineCount : ℕ) (changeRatio : ℚ) : ℤ :=
  if 0 < baselineCount then
    if s.changeRatioHigh < changeRatio then s.pointsChangeHigh
    else if s.changeRatioLow < changeRatio then s.pointsChangeLow
    else 0
  else 0

def computeConfidencePoints (packet : EvidencePacket) : ℤ :=
  match packet.primaryCluster with
  | none => 0
  | some pc =>
      countPoints s pc.count + changePoints s pc.baselineCount pc.changeRatio +
        (if packet.triggerFound.isNone && !packet.triggerCandidates.isEmpty then s.pointsTrigger
          else 0) +
        (if packet.secondaryClusters.isEmpty then 0 else s.pointsSecondary) +
        (if 1 < packet.servicesAffected.length then s.pointsMultiservice else 0)

/-- The label of some points; the highest one needs a trigger. -/
def labelOf (hasTrigger : Bool) (score : ℤ) : ConfidenceLabel :=
  if s.thresholdHigh ≤ score ∧ hasTrigger then .high
  else if s.thresholdMediumHigh ≤ score then .mediumHigh
  else if s.thresholdMedium ≤ score then .medium
  else .low

/-- The label of an explanation. A trigger counts only where it is found by its wording. -/
def computeConfidence (packet : EvidencePacket) : ConfidenceLabel :=
  if packet.primaryCluster.isNone then .low
  else labelOf s (packet.triggerFound.isNone && !packet.triggerCandidates.isEmpty)
    (computeConfidencePoints s packet)

end Raglogs.Confidences
