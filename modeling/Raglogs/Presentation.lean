import Raglogs.ClassScoring
import Raglogs.Outcomes
import Raglogs.SortedDicts
import Mathlib.Data.Option.Basic

/-!
Presentation of the structural result: the packet for the API and the lines for a
reader, both computed from the result alone. A ranking orders and scores the
classes only when it is a ranking of exactly these classes. A line is kept with
the data it shows, and its text is the one that is printed.
-/

namespace Raglogs.Presentation

open Collections Dicts SortedDicts Observables Hypotheses Partitioning Outcomes ClassScoring

variable {ρ : Type}

/-- The id-sets of some classes, as a sorted list of sorted lists. -/
def sortedIds (idLists : List (List String)) : List (List String) :=
  sortOn id (idLists.map (fun ids => inOrder ids.toFinset))

/-- The order of the classes, the scores by id-set, and whether a ranking was used. -/
structure Applied (ρ : Type) where
  ordered : List ClassView
  scores : Option (Dict (Finset String) (ScoredClass ρ))
  applied : Bool

/-- Use a ranking for the order and the scores, or reject it as a whole; `none` is
the missing key of a class that the ranking names and the packet has not. -/
def applyRanking (result : StructuralResult) (ranking : List (ScoredClass ρ)) :
    Option (Applied ρ) :=
  if ranking.isEmpty then some ⟨result.classes, none, false⟩
  else if sortedIds (ranking.map ScoredClass.hypothesisIds) ≠
      sortedIds (result.classes.map ClassView.hypothesisIds) then
    some ⟨result.classes, none, false⟩
  else do
    let byIds := dictOf (result.classes.map (fun c => (c.hypothesisIds.toFinset, c)))
    let ordered ← ranking.mapM (fun r => byIds.lookup r.hypothesisIds.toFinset)
    return ⟨ordered, some (dictOf (ranking.map (fun r => (r.hypothesisIds.toFinset, r)))), true⟩

/-- The distinguishers that could be collected. -/
def separableMissing (result : StructuralResult) : Finset String :=
  result.dMissing \ result.integrationGaps.toFinset

/-- What is suggested for collection, and why. -/
inductive NextObservation
  | distinguisher (observableId : String)
  | check (observableId hypothesisId : String)
  | gap (observableId : String)
deriving DecidableEq, Repr

namespace NextObservation

def observableId : NextObservation → String
  | .distinguisher f => f
  | .check f _ => f
  | .gap f => f

def text : NextObservation → String
  | .distinguisher f => f
  | .check f hypothesisId => f ++ " (would rule out " ++ hypothesisId ++ ")"
  | .gap f => f ++ " (not collected — integration gap)"

end NextObservation

/-- The suggestions in the order they are listed, before equal lines are dropped. -/
def nextItems (result : StructuralResult) : List NextObservation :=
  (inOrder (separableMissing result)).map .distinguisher ++
    result.potentialEliminationChecks.map (fun chk => .check chk.observableId chk.hypothesisId) ++
    result.integrationGaps.map .gap

def nextObservations (result : StructuralResult) : List String :=
  fromKeys ((nextItems result).map NextObservation.text)

/-! The packet. -/

structure EvidencePacket where
  observable : String
  observed : String
  expected : Option String
  relation : String
deriving DecidableEq, Repr

structure ClassPacket (ρ : Type) where
  localizations : List String
  hypothesisIds : List String
  signature : Signature
  evidence : List EvidencePacket
  dMissing : List String
  score : Option ℤ
  rankerSignal : Option ρ
deriving DecidableEq

structure EliminatedPacket where
  localization : String
  evidence : List (String × String)
deriving DecidableEq, Repr

structure Packet (ρ : Type) where
  outcome : String
  localization : List String
  classes : List (ClassPacket ρ)
  dMissing : List String
  nextObservations : List String
  integrationGaps : List String
  eliminated : List EliminatedPacket
deriving DecidableEq

def evidencePacket (e : EvidenceItem) : EvidencePacket :=
  ⟨e.observableId, e.observedState, e.expectedState, e.relation.value⟩

def classPacket (gaps : Finset String) (scored : Option (ScoredClass ρ)) (c : ClassView) :
    ClassPacket ρ where
  localizations := c.localizations
  hypothesisIds := c.hypothesisIds
  signature := c.signature
  evidence := c.evidence.map evidencePacket
  dMissing := inOrder (c.dMissing \ gaps)
  score := scored.map ScoredClass.score
  rankerSignal := scored.bind ScoredClass.rankerSignal

def eliminatedPacket (e : EliminatedView) : EliminatedPacket :=
  ⟨e.member.localization, e.evidence.map (fun ev => (ev.observableId, ev.observedState))⟩

/-- The score of a class, when the ranking was used. -/
def Applied.scored (a : Applied ρ) (c : ClassView) : Option (ScoredClass ρ) :=
  a.scores.bind (fun scores => scores.lookup c.hypothesisIds.toFinset)

/-- The packet, once it is decided what becomes of the ranking. -/
def packetFor (result : StructuralResult) (a : Applied ρ) : Packet ρ where
  outcome := result.outcome.value
  localization := result.localization
  classes := a.ordered.map (fun c => classPacket result.integrationGaps.toFinset (a.scored c) c)
  dMissing := inOrder (separableMissing result)
  nextObservations := nextObservations result
  integrationGaps := result.integrationGaps
  eliminated := result.eliminated.map eliminatedPacket

def structuralPacket (result : StructuralResult) (ranking : List (ScoredClass ρ)) :
    Option (Packet ρ) :=
  (applyRanking result ranking).map (packetFor result)

/-! The lines. -/

def headline : Outcome → String
  | .identified => "IDENTIFIED"
  | .nonIdentifiable => "NON_IDENTIFIABLE"
  | .irreducible => "IRREDUCIBLE"
  | .uncertain => "UNCERTAIN"
  | .noCompatibleHypothesis => "NO_COMPATIBLE_HYPOTHESIS"

inductive Line
  | outcome (outcome : Outcome)
  | allRuledOut
  | ruledOut (e : EliminatedView)
  | localization (services : List String)
  | hypothesisHeader (singleton : Bool)
  | hypothesis (localization : String)
  | competingHeader (ranked : Bool)
  | competing (localizations : List String)
  | evidenceHeader
  | evidence (e : EvidenceItem)
  | inseparableHeader
  | missing (observableId : String)
  | missingUncollected
  | noModeledObservation
  | nextHeader
  | next (observation : String)
deriving DecidableEq

def commaSeparated (l : List String) : String := String.intercalate ", " l

def Line.text : Line → String
  | .outcome o => "Outcome:   " ++ headline o
  | .allRuledOut => "All candidate hypotheses were ruled out by observed evidence:"
  | .ruledOut e =>
      let why := commaSeparated
        (e.evidence.map (fun ev => ev.observableId ++ "=" ++ ev.observedState))
      "  - " ++ e.member.localization ++
        (if why ≠ "" then "  (ruled out by " ++ why ++ ")" else "")
  | .localization services => "Localization: " ++ commaSeparated services
  | .hypothesisHeader singleton =>
      (if singleton then "Hypothesis" else "Remaining hypotheses") ++ ":"
  | .hypothesis loc => "  - " ++ loc
  | .competingHeader ranked =>
      if ranked then "Competing hypotheses (most-supported first):" else "Competing hypotheses:"
  | .competing locs => "  - " ++ commaSeparated locs
  | .evidenceHeader => "Observed evidence:"
  | .evidence e => "  ✓ " ++ e.observableId ++ " = " ++ e.observedState
  | .inseparableHeader => "Why they cannot be separated:"
  | .missing f => "  ? " ++ f ++ " (not collected)"
  | .missingUncollected =>
      "  ? the distinguishing telemetry is not collected (see next observations)"
  | .noModeledObservation => "  ? no modeled observation distinguishes them (extend the model)"
  | .nextHeader => "Useful next observations:"
  | .next o => "  - " ++ o

def nextLines (result : StructuralResult) : List Line :=
  if (nextObservations result).isEmpty then []
  else .nextHeader :: (nextObservations result).map .next

/-- One class is listed member by member, several are listed class by class. -/
def hypothesisLines (classes : List ClassView) (applied : Bool) : List Line :=
  match classes with
  | [cls] => .hypothesisHeader cls.isSingleton :: cls.localizations.map .hypothesis
  | _ => .competingHeader applied :: classes.map (fun c => .competing c.localizations)

/-- One step of the supporting facts: each (observable, state) is listed once. -/
def supportingStep (out : List EvidenceItem) (e : EvidenceItem) : List EvidenceItem :=
  if e.relation = .supports ∧
      (e.observableId, e.observedState) ∉ out.map (fun x => (x.observableId, x.observedState)) then
    out ++ [e]
  else out

def supportingEvidence (classes : List ClassView) : List EvidenceItem :=
  (classes.flatMap ClassView.evidence).foldl supportingStep []

def evidenceLines (classes : List ClassView) : List Line :=
  let evidence := supportingEvidence classes
  if evidence.isEmpty then [] else .evidenceHeader :: evidence.map .evidence

/-- Why the members of the one class stay together. -/
def inseparableLines (result : StructuralResult) : List Line :=
  match result.outcome with
  | .nonIdentifiable =>
      let separable := inOrder (separableMissing result)
      .inseparableHeader ::
        (if separable.isEmpty then [.missingUncollected] else separable.map .missing)
  | .irreducible => [.inseparableHeader, .noModeledObservation]
  | _ => []

/-- The lines, once it is decided what becomes of the ranking. -/
def linesFor (result : StructuralResult) (a : Applied ρ) : List Line :=
  if result.outcome = .noCompatibleHypothesis then
    .outcome result.outcome :: .allRuledOut :: result.eliminated.map .ruledOut ++
      nextLines result
  else
    .outcome result.outcome ::
      (if result.localization.isEmpty then [] else [.localization result.localization]) ++
      hypothesisLines a.ordered a.applied ++ evidenceLines a.ordered ++
      inseparableLines result ++ nextLines result

def renderLines (result : StructuralResult) (ranking : List (ScoredClass ρ)) :
    Option (List Line) :=
  (applyRanking result ranking).map (linesFor result)

end Raglogs.Presentation
