import Raglogs.Partitioning
import Mathlib.Order.BoundedOrder.Basic
import Mathlib.Order.OrderDual

/-!
Class scoring: an order over the surviving classes, for presentation. A hypothesis
scores the sum of small integer weights over its soft expectations, a class the
maximum over its members. The score of the earlier ranker is one more key, read
only between classes of equal score.
-/

namespace Raglogs.ClassScoring

open Collections Dicts Observables Hypotheses Partitioning

/-- The discrete evidence levels. -/
inductive Support
  | strongSupport
  | support
  | weakSupport
  | neutral
  | weakContradiction
  | softContradiction
deriving DecidableEq, Repr

def Support.weight : Support → ℤ
  | .strongSupport => 3
  | .support => 2
  | .weakSupport => 1
  | .neutral => 0
  | .weakContradiction => -1
  | .softContradiction => -2

def matched : Strength → Support
  | .usually => .strongSupport
  | .often => .support
  | .maybe => .weakSupport
  | .notRequired => .neutral

def mismatched : Strength → Support
  | .usually => .softContradiction
  | .often => .weakContradiction
  | .maybe => .weakContradiction
  | .notRequired => .neutral

variable {σ τ ρ : Type}

/-- The evidence score of a hypothesis; an expectation that was not measured is neutral. -/
def scoreFromStates (hypothesis : Hypothesis σ) (observed : Dict String String) : ℤ :=
  match hypothesis.observationModel with
  | none => 0
  | some model =>
      model.expected.foldl (fun total e =>
        match observed.lookup e.observableId with
        | none => total
        | some state =>
            total + (if state = e.expectedState then matched e.strength
              else mismatched e.strength).weight) 0

/-- A surviving class with its evidence score and the signal of the ranker. -/
structure ScoredClass (ρ : Type) where
  hypothesisIds : List String
  localizations : List String
  signature : Signature
  score : ℤ
  rankerSignal : Option ρ
  memberScores : List (String × ℤ)
deriving DecidableEq

section Ranking

variable [LinearOrder ρ]

/-- The largest score the ranker gave a member, if it gave one any. -/
def rankerSignal (score : σ → ρ) (members : List (Hypothesis σ)) : Option ρ :=
  (members.filterMap (fun h => h.source.map score)).max?

/-- The score of a class, a maximum over members of which there is at least one. -/
def classScore (cls : EquivalenceClass σ) (observed : Dict String String) : ℤ :=
  (cls.members.map (fun h => scoreFromStates h observed)).max (by simpa using cls.members_ne)

def scoredClass (score : σ → ρ) (useRanker : Bool) (cls : EquivalenceClass σ)
    (observed : Dict String String) : ScoredClass ρ where
  hypothesisIds := cls.members.map Hypothesis.id
  localizations := fromKeys (cls.members.map Hypothesis.localization)
  signature := cls.signature
  score := classScore cls observed
  rankerSignal := if useRanker then rankerSignal score cls.members else none
  memberScores := cls.members.map (fun h => (h.id, scoreFromStates h observed))

variable [OrderBot ρ]

/-- Best score first, then the best signal with a missing one last, then the signature. -/
def rankKey (s : ScoredClass ρ) : ℤ ×ₗ ρᵒᵈ ×ₗ List (String ×ₗ String) :=
  toLex (-s.score, toLex (OrderDual.toDual (s.rankerSignal.getD ⊥), s.signature.sortKey))

/-- Order the classes of a partition for presentation, from its own usable states. -/
def rankClasses (score : σ → ρ) (useRanker : Bool) (partition : Partition σ) :
    List (ScoredClass ρ) :=
  sortOn rankKey
    (partition.classes.map (fun c => scoredClass score useRanker c partition.usableStates))

end Ranking

end Raglogs.ClassScoring
