import Raglogs.Partitioning

/-!
The structural outcome and its evidence packet. The outcome is a function of the
shape of the partition. The packet validates itself when it is built: its outcome
and its summaries must be the ones its own class views give, and a packet without
survivors must cite an observation for every elimination. The type carries these
facts, so a packet that contradicts itself cannot be built.
-/

namespace Raglogs.Outcomes

open Collections Dicts Observables Hypotheses Partitioning

inductive Outcome
  | noCompatibleHypothesis
  | identified
  | nonIdentifiable
  | irreducible
  | uncertain
deriving DecidableEq, Repr

def Outcome.value : Outcome → String
  | .noCompatibleHypothesis => "no_compatible_hypothesis"
  | .identified => "identified"
  | .nonIdentifiable => "non_identifiable"
  | .irreducible => "irreducible"
  | .uncertain => "uncertain"

variable {σ : Type}

/-- The outcome of a partition, from the number and the shape of its classes. -/
def classify (partition : Partition σ) : Outcome :=
  if partition.noSurvivingHypothesis then .noCompatibleHypothesis
  else if partition.classes.length > 1 then .uncertain
  else
    match partition.classes with
    | [cls] =>
        if cls.isSingleton then .identified
        else if cls.dMissing ≠ ∅ then .nonIdentifiable
        else .irreducible
    | _ => .uncertain

/-- How an observed fact bears on a hypothesis. -/
inductive Relation
  | supports
  | mismatch
  | hardEliminates
deriving DecidableEq, Repr

def Relation.value : Relation → String
  | .supports => "supports"
  | .mismatch => "mismatch"
  | .hardEliminates => "hard_eliminates"

structure EvidenceItem where
  observableId : String
  observedState : String
  expectedState : Option String
  relation : Relation
deriving DecidableEq, Repr

structure MemberView where
  id : String
  kind : String
  localization : String
deriving DecidableEq, Repr

/-- What to collect to rule a hypothesis out. -/
structure EliminationCheck where
  hypothesisId : String
  observableId : String
  eliminatingStates : List String
deriving DecidableEq, Repr

def EliminationCheck.key (e : EliminationCheck) : String ×ₗ String :=
  toLex (e.hypothesisId, e.observableId)

structure ClassView where
  members : List MemberView
  signature : Signature
  dMissing : Finset String
  evidence : List EvidenceItem
  eliminationChecks : List EliminationCheck
  members_ne : members ≠ []

def ClassView.make (members : List MemberView) (signature : Signature)
    (dMissing : Finset String) (evidence : List EvidenceItem)
    (eliminationChecks : List EliminationCheck) : Except StructuralError ClassView :=
  if h : members ≠ [] then .ok ⟨members, signature, dMissing, evidence, eliminationChecks, h⟩
  else .error .emptyClassView

def ClassView.hypothesisIds (v : ClassView) : List String := v.members.map MemberView.id

/-- The distinct localizations of the members, in order. -/
def ClassView.localizations (v : ClassView) : List String :=
  fromKeys (v.members.map MemberView.localization)

def ClassView.isSingleton (v : ClassView) : Bool := v.members.length == 1

structure EliminatedView where
  member : MemberView
  evidence : List EvidenceItem
deriving DecidableEq, Repr

def expectedOutcome : List ClassView → Outcome
  | [] => .noCompatibleHypothesis
  | [cls] =>
      if cls.isSingleton then .identified
      else if cls.dMissing ≠ ∅ then .nonIdentifiable
      else .irreducible
  | _ :: _ :: _ => .uncertain

/-- The distinct localizations of the members, in order of first appearance. -/
def summaryLocalization (classes : List ClassView) : List String :=
  fromKeys (classes.flatMap (fun v => v.members.map MemberView.localization))

def unionDMissing (classes : List ClassView) : Finset String :=
  classes.foldl (fun missing v => missing ∪ v.dMissing) ∅

/-- The set of the classes' checks, sorted by hypothesis and observable. -/
def unionChecks (classes : List ClassView) : List EliminationCheck :=
  sortOn EliminationCheck.key (fromKeys (classes.flatMap ClassView.eliminationChecks))

/-- The evidence packet. -/
structure StructuralResult where
  outcome : Outcome
  localization : List String
  classes : List ClassView
  dMissing : Finset String
  potentialEliminationChecks : List EliminationCheck
  eliminated : List EliminatedView
  integrationGaps : List String
  outcome_eq : outcome = expectedOutcome classes
  localization_eq : localization = summaryLocalization classes
  dMissing_eq : dMissing = unionDMissing classes
  checks_eq : potentialEliminationChecks = unionChecks classes
  eliminated_evidence : outcome = .noCompatibleHypothesis →
    eliminated ≠ [] ∧ ∀ e ∈ eliminated, e.evidence ≠ []

/-- The constructor of the source: the checks in their order, then the packet. -/
def StructuralResult.make (outcome : Outcome) (localization : List String)
    (classes : List ClassView) (dMissing : Finset String)
    (potentialEliminationChecks : List EliminationCheck) (eliminated : List EliminatedView)
    (integrationGaps : List String) : Except StructuralError StructuralResult :=
  if ho : outcome = expectedOutcome classes then
    if hl : localization = summaryLocalization classes then
      if hd : dMissing = unionDMissing classes then
        if hc : potentialEliminationChecks = unionChecks classes then
          if he : outcome = .noCompatibleHypothesis →
              eliminated ≠ [] ∧ ∀ e ∈ eliminated, e.evidence ≠ [] then
            .ok ⟨outcome, localization, classes, dMissing, potentialEliminationChecks,
              eliminated, integrationGaps, ho, hl, hd, hc, he⟩
          else .error .eliminationWithoutEvidence
        else .error .checksMismatch
      else .error .dMissingMismatch
    else .error .localizationMismatch
  else .error .outcomeMismatch

def memberView (h : Hypothesis σ) : MemberView := ⟨h.id, h.kind.value, h.localization⟩

/-- The contradiction rules of the members on coordinates that were not usable. -/
def eliminationChecks (cls : EquivalenceClass σ) (fUsable : Finset String) :
    List EliminationCheck :=
  sortOn EliminationCheck.key
    (cls.members.flatMap (fun h =>
      (h.contradictions.filter (fun c => c.observableId ∉ fUsable)).map
        (fun c => ⟨h.id, c.observableId, c.states.sort⟩)))

/-- Each usable coordinate of the signature, with its observed state. -/
def classEvidence (cls : EquivalenceClass σ) (observed : Dict String String) :
    List EvidenceItem :=
  cls.signature.filterMap (fun p =>
    (observed.lookup p.1).map (fun obs =>
      ⟨p.1, obs, some p.2, if obs = p.2 then .supports else .mismatch⟩))

/-- A contradicted hypothesis and the usable observations that eliminated it. -/
def eliminatedView (h : Hypothesis σ) (observed : Dict String String) : EliminatedView :=
  let items := h.contradictions.filterMap (fun c =>
    match observed.lookup c.observableId with
    | some st => if st ∈ c.states then some ⟨c.observableId, st, none, .hardEliminates⟩ else none
    | none => none)
  ⟨memberView h, sortOn EvidenceItem.observableId items⟩

def classView (cls : EquivalenceClass σ) (fUsable : Finset String)
    (observed : Dict String String) : Except StructuralError ClassView :=
  ClassView.make (cls.members.map memberView) cls.signature cls.dMissing
    (classEvidence cls observed) (eliminationChecks cls fUsable)

/-- Assemble the packet of a partition; `observations` serves the integration gaps only. -/
def resolve (partition : Partition σ) (observations : List Observable) :
    Except StructuralError StructuralResult := do
  let outcome := classify partition
  let fUsable := partition.fUsable.toFinset
  let observed := partition.usableStates
  let views ← partition.classes.mapM (fun c => classView c fUsable observed)
  let gaps ← integrationGaps observations
  StructuralResult.make outcome (summaryLocalization views) views (unionDMissing views)
    (unionChecks views) (partition.eliminated.map (fun h => eliminatedView h observed)) gaps

end Raglogs.Outcomes
