import Mathlib.Data.List.Dedup
import Raglogs.Branchings
import Raglogs.Text

/-!
The files of the learned ranker and of the confidence calibrator: how a file is turned
into a model, with the exceptions that are caught on the way, and how a model scores.
The floats of the language and the reader of its JSON texts are parameters.
-/

namespace Raglogs.ModelFiles

open Branchings Text

/-- Exceptions of the language. -/
inductive PyError
  | os
  | value
  | key
  | type
  | index
  | attribute
  | overflow
  | zeroDivision
  | recursion
deriving DecidableEq

/-- The exceptions for which no model is loaded. -/
def PyError.caught : PyError → Bool
  | .os | .value | .key | .type => true
  | _ => false

/-- Floats, with what the language does with them. -/
structure Floats (φ : Type) where
  /-- The float of an integer; there is none for one that is too large. -/
  ofInt : ℤ → Option φ
  /-- The float that a text writes. -/
  ofString : String → Option φ
  /-- The float of a count of things at hand, which is never too large. -/
  ofCount : ℕ → φ
  equalsInt : φ → ℤ → Bool
  le : φ → φ → Bool
  neg : φ → φ
  add : φ → φ → φ
  sub : φ → φ → φ
  mul : φ → φ → φ
  sum : List φ → φ
  /-- The quotient; there is none for a divisor of zero. -/
  div : φ → φ → Option φ
  /-- The exponential; there is none if it is too large. -/
  exp : φ → Option φ
  ofString_empty : ofString "" = none
  div_ofCount : ∀ (x : φ) (n : ℕ), 0 < n → (div x (ofCount n)).isSome
  /-- An exponential is not negative. -/
  div_exp : ∀ x y e : φ, exp y = some e → (div x (add (ofCount 1) e)).isSome

/-- What a JSON text stands for. -/
inductive Value (φ : Type)
  | null
  | bool (b : Bool)
  | int (n : ℤ)
  | float (x : φ)
  | str (s : String)
  | list (items : List (Value φ))
  | dict (fields : List (String × Value φ))

/-- A reader of JSON texts. It rejects a text, or gives up on one that nests too deep. -/
structure JsonReader (φ : Type) where
  loads : String → Except PyError (Value φ)
  raises : ∀ text e, loads text = .error e → e = .value ∨ e = .recursion

/-- What is found at a path. -/
inductive File
  | absent
  | unreadable
  | undecodable
  | text (s : String)

section Values

variable {φ : Type} (F : Floats φ)

def Value.equalsInt (v : Value φ) (n : ℤ) : Bool :=
  match v with
  | .bool b => b.toNat = n
  | .int m => m = n
  | .float x => F.equalsInt x n
  | _ => false

def Value.toFloat (v : Value φ) : Except PyError φ :=
  match v with
  | .bool b => .ok (F.ofCount b.toNat)
  | .int n => (F.ofInt n).elim (.error .overflow) .ok
  | .float x => .ok x
  | .str s => (F.ofString s).elim (.error .value) .ok
  | _ => .error .type

/-- What a loop over a value goes through. -/
def Value.iterate : Value φ → Except PyError (List (Value φ))
  | .list items => .ok items
  | .str s => .ok (s.toList.map fun c => .str (String.singleton c))
  | .dict fields => .ok (fields.map fun field => .str field.1)
  | _ => .error .type

/-- The member of a value with a key. -/
def Value.member (v : Value φ) (key : String) : Except PyError (Value φ) :=
  match v with
  | .dict fields => (fields.lookup key).elim (.error .key) .ok
  | _ => .error .type

/-- What a loop over a member goes through. -/
def Value.itemsAt (v : Value φ) (key : String) : Except PyError (List (Value φ)) := do
  (← v.member key).iterate

def Value.floatAt (v : Value φ) (key : String) : Except PyError φ := do
  (← v.member key).toFloat F

/-- The floats that a loop over a member goes through. -/
def Value.floatsAt (v : Value φ) (key : String) : Except PyError (List φ) := do
  (← v.itemsAt key).mapM (Value.toFloat F)

/-- The index that a value is. -/
def Value.index : Value φ → Option ℤ
  | .bool b => some b.toNat
  | .int n => some n
  | _ => none

end Values

/-- The item at an index, from the end for a negative one. -/
def item? {α : Type} (xs : List α) (i : ℤ) : Option α :=
  if 0 ≤ i then xs[i.toNat]? else if -xs.length ≤ i then xs[(xs.length + i).toNat]? else none

def item {α φ : Type} (xs : List α) (v : Value φ) : Except PyError α :=
  match v.index with
  | none => .error .type
  | some i => (item? xs i).elim (.error .index) .ok

/-! Features. -/

structure ServiceFeatures (φ : Type) where
  service : String
  logErr : ℕ
  logGrp : ℕ
  logStack : ℕ
  trRate : φ
  trDur : φ
  metAnom : φ
  hasLogs : Bool
  hasTraces : Bool
  hasMetrics : Bool

def featureNames : List String :=
  ["log_err", "log_grp", "log_stack", "tr_rate", "tr_dur", "met_anom", "has_logs", "has_traces",
    "has_metrics"]

section Features

variable {φ : Type} (F : Floats φ) (sf : ServiceFeatures φ)

/-- The number in a field. -/
def ServiceFeatures.number (name : String) : Option φ :=
  match name with
  | "log_err" => some (F.ofCount sf.logErr)
  | "log_grp" => some (F.ofCount sf.logGrp)
  | "log_stack" => some (F.ofCount sf.logStack)
  | "tr_rate" => some sf.trRate
  | "tr_dur" => some sf.trDur
  | "met_anom" => some sf.metAnom
  | "has_logs" => some (F.ofCount sf.hasLogs.toNat)
  | "has_traces" => some (F.ofCount sf.hasTraces.toNat)
  | "has_metrics" => some (F.ofCount sf.hasMetrics.toNat)
  | _ => none

/-- The float of an attribute. -/
def ServiceFeatures.attribute : Value φ → Except PyError φ
  | .str "service" => (Value.str sf.service).toFloat F
  | .str name => (sf.number F name).elim (.error .attribute) .ok
  | _ => .error .type

/-- The values of features, of the usual ones if none are named. -/
def ServiceFeatures.vector (names : List (Value φ)) : Except PyError (List φ) :=
  (if names = [] then featureNames.map .str else names).mapM (sf.attribute F)

end Features

/-! The ranker. -/

structure Tree (φ : Type) where
  childrenLeft : List (Value φ)
  childrenRight : List (Value φ)
  feature : List (Value φ)
  threshold : List φ
  value : List φ

structure RcaRanker (φ : Type) where
  featureNames : List (Value φ)
  init : φ
  learningRate : φ
  trees : List (Tree φ)

section Ranker

variable {φ : Type} (F : Floats φ)

/-- Whether a vector goes to the left at a node. -/
def Tree.goesLeft (t : Tree φ) (x : List φ) (node : Value φ) : Except PyError Bool := do
  let feature ← item t.feature node
  let v ← item x feature
  let threshold ← item t.threshold node
  return F.le v threshold

/-- The walk from a node, if so many nodes suffice for it. -/
def Tree.walk (t : Tree φ) (x : List φ) : ℕ → Value φ → Option (Except PyError φ)
  | 0, _ => none
  | fuel + 1, node =>
      match item t.childrenLeft node with
      | .error e => some (.error e)
      | .ok left =>
          if left.equalsInt F (-1) then some (item t.value node)
          else
            match t.goesLeft F x node with
            | .error e => some (.error e)
            | .ok true => t.walk x fuel left
            | .ok false =>
                match item t.childrenRight node with
                | .error e => some (.error e)
                | .ok right => t.walk x fuel right

def Tree.predict (t : Tree φ) (fuel : ℕ) (x : List φ) : Option (Except PyError φ) :=
  t.walk F x fuel (.int 0)

/-- The predictions of trees one after the other. -/
def predictAll (fuel : ℕ) (x : List φ) : List (Tree φ) → Option (Except PyError (List φ))
  | [] => some (.ok [])
  | t :: rest =>
      match t.predict F fuel x with
      | none => none
      | some (.error e) => some (.error e)
      | some (.ok v) => (predictAll fuel x rest).map fun r => r.map (v :: ·)

/-- The decision for the values that the trees predict. -/
def RcaRanker.decision (m : RcaRanker φ) (values : List φ) : φ :=
  F.add m.init (F.mul m.learningRate (F.sum values))

/-- The probability of a decision. -/
def sigmoid (d : φ) : Except PyError φ :=
  match F.exp (F.neg d) with
  | none => .error .overflow
  | some e => (F.div (F.ofCount 1) (F.add (F.ofCount 1) e)).elim (.error .zeroDivision) .ok

def RcaRanker.scoreVector (m : RcaRanker φ) (fuel : ℕ) (x : List φ) : Option (Except PyError φ) :=
  (predictAll F fuel x m.trees).map fun r => r.bind fun values => sigmoid F (m.decision F values)

def RcaRanker.score (m : RcaRanker φ) (fuel : ℕ) (sf : ServiceFeatures φ) :
    Option (Except PyError φ) :=
  match sf.vector F m.featureNames with
  | .error e => some (.error e)
  | .ok x => m.scoreVector F fuel x

def readTree (v : Value φ) : Except PyError (Tree φ) := do
  let childrenLeft ← v.itemsAt "children_left"
  let childrenRight ← v.itemsAt "children_right"
  let feature ← v.itemsAt "feature"
  let threshold ← v.floatsAt F "threshold"
  let value ← v.floatsAt F "value"
  return ⟨childrenLeft, childrenRight, feature, threshold, value⟩

def artifactVersion : ℤ := 1

/-- The member of an object with a key; what is no object has no such method. -/
def Value.get (v : Value φ) (key : String) : Except PyError (Value φ) :=
  match v with
  | .dict fields => .ok ((fields.lookup key).getD .null)
  | _ => .error .attribute

def rankerFromDict (data : Value φ) : Except PyError (RcaRanker φ) := do
  let version ← data.get "version"
  if version.equalsInt F artifactVersion = false then
    throw .value
  let items ← data.itemsAt "trees"
  let trees ← items.mapM (readTree F)
  let names ← data.itemsAt "feature_names"
  let init ← data.floatAt F "init"
  let learningRate ← data.floatAt F "learning_rate"
  return ⟨names, init, learningRate, trees⟩

end Ranker

/-! The calibrator. -/

structure ModalityEvidence where
  modality : String

structure RootCauseCandidate (φ : Type) where
  score : φ
  evidence : List ModalityEvidence

def RootCauseCandidate.modalities {φ : Type} (c : RootCauseCandidate φ) : List String :=
  c.evidence.map ModalityEvidence.modality

inductive CalibrationFeature
  | topScore
  | margin
  | nCandidates
  | nModalities
  | crossModalAgreement

def CalibrationFeature.ofName : String → Option CalibrationFeature
  | "top_score" => some .topScore
  | "margin" => some .margin
  | "n_candidates" => some .nCandidates
  | "n_modalities" => some .nModalities
  | "cross_modal_agreement" => some .crossModalAgreement
  | _ => none

structure PlattCalibrator (φ : Type) where
  a : φ
  b : φ
  feature : CalibrationFeature

section Calibrator

variable {φ : Type} (F : Floats φ)

/-- A feature of a list of candidates, the one with the highest score first. -/
def calibrationFeature (candidates : List (RootCauseCandidate φ)) :
    CalibrationFeature → Except PyError φ
  | .topScore =>
      match candidates with
      | [] => .ok (F.ofCount 0)
      | top :: _ => .ok top.score
  | .margin =>
      match candidates with
      | top :: second :: _ => .ok (F.sub top.score second.score)
      | _ => .ok (F.ofCount 0)
  | .nCandidates => .ok (F.ofCount candidates.length)
  | .nModalities =>
      match candidates with
      | [] => .ok (F.ofCount 0)
      | top :: _ => .ok (F.ofCount top.modalities.dedup.length)
  | .crossModalAgreement =>
      match candidates with
      | [] => .ok (F.ofCount 0)
      | top :: _ =>
          let present := (candidates.flatMap RootCauseCandidate.modalities).dedup
          if present = [] then .ok (F.ofCount 0)
          else
            (F.div (F.ofCount top.modalities.dedup.length) (F.ofCount present.length)).elim
              (.error .zeroDivision) .ok

def PlattCalibrator.probability (c : PlattCalibrator φ) (featureValue : φ) : Except PyError φ :=
  sigmoid F (F.add (F.mul c.a featureValue) c.b)

/-- The confidence; there is none without candidates. -/
def PlattCalibrator.confidence (c : PlattCalibrator φ) (candidates : List (RootCauseCandidate φ)) :
    Except PyError (Option φ) :=
  if candidates.isEmpty then .ok none
  else do
    let v ← calibrationFeature F candidates c.feature
    return some (← c.probability F v)

/-- The feature that is named; it is the top score if none is. -/
def Value.featureName (v : Value φ) : Option CalibrationFeature :=
  match v with
  | .dict fields =>
      match fields.lookup "feature" with
      | none => some .topScore
      | some (.str name) => CalibrationFeature.ofName name
      | some _ => none
  | _ => none

def calibratorVersion : ℤ := 1

def calibratorFromDict (data : Value φ) : Except PyError (PlattCalibrator φ) := do
  let version ← data.get "version"
  if version.equalsInt F calibratorVersion = false then
    throw .value
  let kind ← data.get "type"
  match kind with
  | .str "platt" =>
      match data.featureName with
      | none => throw .value
      | some feature =>
          let a ← data.floatAt F "a"
          let b ← data.floatAt F "b"
          return ⟨a, b, feature⟩
  | _ => throw .value

end Calibrator

/-! Loading. -/

section Loading

variable {φ μ : Type}

/-- A model from a file, or none where an exception is caught. -/
def loadModel (reader : JsonReader φ) (build : Value φ → Except PyError μ) (path : Option String)
    (file : File) : Except PyError (Option μ) :=
  let caught (e : PyError) : Except PyError (Option μ) := if e.caught then .ok none else .error e
  match truthy path, file with
  | none, _ => .ok none
  | some _, .absent => .ok none
  | some _, .unreadable => caught .os
  | some _, .undecodable => caught .value
  | some _, .text s =>
      match reader.loads s with
      | .error e => caught e
      | .ok data =>
          match build data with
          | .error e => caught e
          | .ok model => .ok (some model)

def loadRanker (F : Floats φ) (reader : JsonReader φ) :
    Option String → File → Except PyError (Option (RcaRanker φ)) :=
  loadModel reader (rankerFromDict F)

def loadCalibrator (F : Floats φ) (reader : JsonReader φ) :
    Option String → File → Except PyError (Option (PlattCalibrator φ)) :=
  loadModel reader (calibratorFromDict F)

end Loading

end Raglogs.ModelFiles
