import Raglogs.Push
import Raglogs.QueryOverrides
import Raglogs.Triggers

/-!
The bodies of an explanation. A fresh one is made from the result of an analysis and dumped
into the cache; a cached one is read back field by field, since it may be of an older shape.
What a model of the schema coerces or refuses is refused here.
-/

namespace Raglogs.ExplainSchema

open Collections Durations LogEntries QueryOverrides Text Triggers

/-- The members of a JSON object. -/
abbrev Fields := List (String × Json)

/-- The value of a key, null when there is none. -/
def get (raw : Fields) (key : String) : Json := (raw.lookup key).getD .null

def isTruthy : Json → Bool
  | .null => false
  | .bool b => b
  | .int n => n != 0
  | .float x => x != 0
  | .str s => s != ""
  | .arr items => !items.isEmpty
  | .obj fields => !fields.isEmpty

def isObject : Json → Bool
  | .obj _ => true
  | _ => false

def objectOf : Json → Option Fields
  | .obj fields => some fields
  | _ => none

/-- `a or b` -/
def orElse (a b : Json) : Json := if isTruthy a then a else b

/-- The ranks of the confidence labels. -/
structure LabelScores where
  low : ℚ
  medium : ℚ
  mediumHigh : ℚ
  high : ℚ

/-- What a body needs besides its values. -/
structure Runtime where
  lowering : Lowering
  /-- The text of a value that is no text. -/
  repr : Json → String
  intOfText : String → Option ℤ
  floatOfText : String → Option ℚ
  boolOfText : String → Option Bool
  parseIso : String → Option Timestamp
  /-- An instant with the offset of a zone. -/
  isoformat : Zone → Timestamp → String
  /-- The zones of the window of a body. -/
  zones : Zones
  labelScores : LabelScores
  settings : Settings
  llmModel : String

/-- What reading a payload raises. -/
inductive PayloadError
  | validation
  | conversion
deriving DecidableEq

structure TimeBounds where
  start : String
  stop : String

structure Confidence where
  label : String
  score : ℚ
  calibrated : Bool

structure TriggerInfo where
  detected : Bool
  type : Option String
  service : Option String
  occurredAt : Option String
  correlation : Option String

structure ClusterEvidence where
  fingerprint : Option String
  template : Option String
  count : Option ℤ
  baselineCount : Option ℤ
  changeRatio : Option ℚ
  services : List String
  levels : List String
  firstSeen : Option String
  lastSeen : Option String
  message : Option String

structure EvidenceItem where
  kind : String
  detail : String
  ref : Option String
  sourceRef : Option String

structure LlmProvenance where
  used : Bool
  provider : String
  model : String
  fellBack : Bool

structure RootCauseEvidence where
  modality : String
  detail : String

structure RootCauseCandidate where
  service : String
  score : ℚ
  modalities : List String
  evidence : List RootCauseEvidence

structure ExplainResponse where
  schemaVersion : String
  scope : String
  window : TimeBounds
  confidence : Confidence
  summary : String
  trigger : TriggerInfo
  primaryCluster : Option ClusterEvidence
  secondaryClusters : List ClusterEvidence
  evidence : List EvidenceItem
  llm : LlmProvenance
  renderedText : String
  markdown : Option String
  cached : Bool
  totalLogs : ℤ
  mode : String
  servicesAffected : List String
  predictedRootCause : Option String
  rootCauseCandidates : List RootCauseCandidate
  predictedRootCauseConfidence : Option ℚ
  absenceCandidates : List String

def schemaVersion : String := "1.0"

section Values

variable (rt : Runtime)

def str : Json → String
  | .str s => s
  | v => rt.repr v

def toInt : Json → Except PayloadError ℤ
  | .int n => .ok n
  | .bool b => .ok (if b then 1 else 0)
  | .float x => .ok (x.num.tdiv x.den)
  | .str s => ((rt.intOfText s).map Except.ok).getD (.error .conversion)
  | _ => .error .conversion

def toFloat : Json → Except PayloadError ℚ
  | .int n => .ok n
  | .bool b => .ok (if b then 1 else 0)
  | .float x => .ok x
  | .str s => ((rt.floatOfText s).map Except.ok).getD (.error .conversion)
  | _ => .error .conversion

/-- The elements of `value or []`. -/
def elements (v : Json) : Except PayloadError (List Json) :=
  if !isTruthy v then .ok []
  else
    match v with
    | .arr items => .ok items
    | .obj fields => .ok (fields.map fun f => .str f.1)
    | .str s => .ok (s.toList.map fun c => .str (String.singleton c))
    | _ => .error .conversion

/-! Fields of a schema. -/

def optionalStr : Json → Except PayloadError (Option String)
  | .null => .ok none
  | .str s => .ok (some s)
  | _ => .error .validation

/-- A text of a list of texts. -/
def requiredStr : Json → Except PayloadError String
  | .str s => .ok s
  | _ => .error .validation

def optionalInt : Json → Except PayloadError (Option ℤ)
  | .null => .ok none
  | .int n => .ok (some n)
  | .bool b => .ok (some (if b then 1 else 0))
  | .float x => if x.den = 1 then .ok (some x.num) else .error .validation
  | .str s => ((rt.intOfText s).map fun n => Except.ok (some n)).getD (.error .validation)
  | _ => .error .validation

def optionalFloat : Json → Except PayloadError (Option ℚ)
  | .null => .ok none
  | .int n => .ok (some n)
  | .bool b => .ok (some (if b then 1 else 0))
  | .float x => .ok (some x)
  | .str s => ((rt.floatOfText s).map fun x => Except.ok (some x)).getD (.error .validation)
  | _ => .error .validation

def requiredBool : Json → Except PayloadError Bool
  | .bool b => .ok b
  | .int n => if n = 0 ∨ n = 1 then .ok (n != 0) else .error .validation
  | .float x => if x = 0 ∨ x = 1 then .ok (x != 0) else .error .validation
  | .str s => ((rt.boolOfText s).map Except.ok).getD (.error .validation)
  | _ => .error .validation

/-- A confidence whose score is a fraction. -/
def confidence (label : String) (score : ℚ) (calibrated : Bool) :
    Except PayloadError Confidence :=
  if 0 ≤ score ∧ score ≤ 1 then .ok ⟨label, score, calibrated⟩ else .error .validation

/-! The parts of a body. -/

def windowFromBounds (start stop : Timestamp) : TimeBounds :=
  ⟨rt.isoformat rt.zones.start start, rt.isoformat rt.zones.stop stop⟩

def windowFromMapping (raw : Json) (fallbackStart fallbackEnd : String) : TimeBounds :=
  match raw with
  | .obj fields =>
      ⟨str rt (orElse (get fields "from") (orElse (get fields "from_") (orElse
        (get fields "start") (.str fallbackStart)))),
        str rt (orElse (get fields "to") (orElse (get fields "end") (.str fallbackEnd)))⟩
  | _ => ⟨fallbackStart, fallbackEnd⟩

/-- What follows the first colon. -/
def afterColon (s : String) : String :=
  String.ofList ((s.toList.dropWhile fun c => c ≠ ':').drop 1)

def startsWith (s start : String) : Bool := start.toList.isPrefixOf s.toList

def skippedLines : List String := ["incident summary", "evidence:"]

/-- The first useful sentence of a prose. -/
def shortSummary (summaryText : String) : String :=
  let text := strip summaryText
  if text = "" then ""
  else
    let lines := (Push.splitlines text).map strip
    let primary := (lines.filter fun line =>
      startsWith (rt.lowering.lower line) "primary issue:").map fun line => strip (afterColon line)
    match primary.find? fun rest => rest ≠ "" with
    | some rest => rest
    | none =>
        match lines.find? fun line => line ≠ "" &&
            !(skippedLines.contains (rt.lowering.lower line)) &&
              !startsWith (rt.lowering.lower line) "window:" with
        | some line => line
        | none => String.ofList (text.toList.takeWhile fun c => c ≠ '\n')

/-- The keys of an object, or the texts of a list. -/
def namesOf : Json → List String
  | .obj fields => fields.map Prod.fst
  | .arr items => items.map (str rt)
  | _ => []

def clusterFromMapping (raw : Json) : Except PayloadError (Option ClusterEvidence) :=
  if !isTruthy raw then .ok none
  else
    match raw with
    | .obj fields => do
        let template := orElse (get fields "template") (orElse (get fields "message")
          (get fields "representative_message"))
        let text := if Push.isNull template then none else some (str rt template)
        let fingerprint ← optionalStr (get fields "fingerprint")
        let count ← optionalInt rt (get fields "count")
        let baselineCount ← optionalInt rt (get fields "baseline_count")
        let changeRatio ← optionalFloat rt (get fields "change_ratio")
        let firstSeen ← optionalStr (get fields "first_seen")
        let lastSeen ← optionalStr (get fields "last_seen")
        return some
          { fingerprint := fingerprint
            template := text
            count := count
            baselineCount := baselineCount
            changeRatio := changeRatio
            services := namesOf rt (get fields "services")
            levels := namesOf rt (get fields "levels")
            firstSeen := firstSeen
            lastSeen := lastSeen
            message := text }
    | _ => .error .conversion

/-- The clusters of a list that are not empty. -/
def clustersFrom (items : List Json) : Except PayloadError (List ClusterEvidence) := do
  let clusters ← items.mapM (clusterFromMapping rt)
  return clusters.filterMap id

def evidenceFromItem (item : Json) : Except PayloadError EvidenceItem :=
  match item with
  | .obj fields =>
      if Push.isNull (get fields "detail") then .ok ⟨"log", str rt item, none, none⟩
      else do
        let ref ← optionalStr (get fields "ref")
        let sourceRef ← optionalStr (get fields "source_ref")
        return ⟨str rt (orElse (get fields "kind") (.str "log")), str rt (get fields "detail"),
          ref, sourceRef⟩
  | _ => .ok ⟨"log", str rt item, none, none⟩

def evidenceFromItems (items : Json) : Except PayloadError (List EvidenceItem) := do
  let items ← elements items
  items.mapM (evidenceFromItem rt)

/-- `str(value) if value else None` -/
def truthyStr (v : Json) : Option String := if isTruthy v then some (str rt v) else none

def noTrigger : TriggerInfo := ⟨false, none, none, none, none⟩

def triggerFromCandidates (candidates : List Json) (primary : Option ClusterEvidence) :
    TriggerInfo :=
  match candidates with
  | [] => noTrigger
  | first :: _ =>
      let fields := (objectOf first).getD []
      let occurredAt := truthyStr rt (orElse (get fields "timestamp") (get fields "at"))
      let triggered := (truthy occurredAt).bind rt.parseIso
      let seen := (truthy (primary.bind ClusterEvidence.firstSeen)).bind rt.parseIso
      let precedes := triggered.any fun t => seen.any fun u => t ≤ u
      { detected := true
        type := inferTriggerType (str rt (orElse (get fields "message") (.str "")))
        service := truthyStr rt (get fields "service")
        occurredAt := occurredAt
        correlation := if precedes then some "precedes_primary_spike" else none }

def triggerFromMapping (raw : Json) (candidates : List Json) (primary : Option ClusterEvidence) :
    Except PayloadError TriggerInfo :=
  match raw with
  | .obj fields =>
      if (fields.lookup "detected").isSome then do
        let detected ← requiredBool rt (get fields "detected")
        let type ← optionalStr (get fields "type")
        let service ← optionalStr (get fields "service")
        let occurredAt ← optionalStr (get fields "at")
        let correlation ← optionalStr (get fields "correlation")
        return ⟨detected, type, service, occurredAt, correlation⟩
      else .ok (triggerFromCandidates rt candidates primary)
  | _ => .ok (triggerFromCandidates rt candidates primary)

def scoreFromLabel : String → ℚ
  | "low" => rt.labelScores.low
  | "medium" => rt.labelScores.medium
  | "medium-high" => rt.labelScores.mediumHigh
  | "high" => rt.labelScores.high
  | _ => 0

/-- A confidence from a label, or from what was dumped of one. -/
def confidenceFromValue (raw : Json) : Except PayloadError Confidence :=
  match raw with
  | .obj fields =>
      let label := str rt (orElse (get fields "label") (.str "low"))
      if Push.isNull (get fields "score") then confidence label (scoreFromLabel rt label) false
      else do
        let score ← toFloat rt (get fields "score")
        confidence label score false
  | _ =>
      let label := str rt (orElse raw (.str "low"))
      confidence label (scoreFromLabel rt label) false

def rootCauseEvidenceFrom : Json → Option RootCauseEvidence
  | .obj e =>
      some ⟨str rt (orElse (get e "modality") (.str "")),
        str rt (orElse (get e "detail") (.str ""))⟩
  | _ => none

def rcaCandidateFrom (c : Fields) : Except PayloadError RootCauseCandidate := do
  let score ← toFloat rt (orElse (get c "score") (.float 0))
  let modalities ← elements (get c "modalities")
  let evidence ← elements (get c "evidence")
  return ⟨str rt (orElse (get c "service") (.str "")), score, modalities.map (str rt),
    evidence.filterMap (rootCauseEvidenceFrom rt)⟩

def rcaCandidatesFrom (raw : Json) : Except PayloadError (List RootCauseCandidate) :=
  match raw with
  | .arr items => (items.filterMap objectOf).mapM (rcaCandidateFrom rt)
  | _ => .ok []

def isNumber : Json → Option ℚ
  | .int n => some n
  | .float x => some x
  | .bool b => some (if b then 1 else 0)
  | _ => none

def isText : Json → Option String
  | .str s => some s
  | _ => none

def llmFromMode (mode : String) (requested : Bool) (provider : Option String) : LlmProvenance :=
  let used := mode == "llm"
  ⟨used, (truthy provider).getD rt.settings.llmProvider, rt.llmModel, requested && !used⟩

def llmRequested (s : Settings) (noLlm : Bool) (llmProvider : Option String) : Bool :=
  !noLlm && llmProvider.getD s.llmProvider != "disabled"

/-- Upgrade a cached payload, old or new, into a body. -/
def explainFromCached (payload : Fields) (windowStart windowEnd : Timestamp) (noLlm : Bool)
    (scope : String) (llmProvider : Option String) : Except PayloadError ExplainResponse := do
  let primary ← clusterFromMapping rt (get payload "primary_cluster")
  let secondaryRaw ← elements (get payload "secondary_clusters")
  let secondary ← clustersFrom rt secondaryRaw
  let candidates ← elements (get payload "trigger_candidates")
  let prose := str rt (orElse (get payload "rendered_text") (orElse (get payload "summary")
    (.str "")))
  let alreadyV1 := isObject (get payload "confidence") &&
    isTruthy (get payload "schema_version")
  let summaryText :=
    if alreadyV1 then str rt (orElse (get payload "summary") (.str (shortSummary rt prose)))
    else shortSummary rt prose
  let mode := str rt (orElse (get payload "mode") (.str "rules"))
  let confidence ← confidenceFromValue rt (get payload "confidence")
  let trigger ← triggerFromMapping rt (get payload "trigger") candidates primary
  let evidence ← evidenceFromItems rt (get payload "evidence")
  let totalLogs ← toInt rt (orElse (get payload "total_logs") (.int 0))
  let services ← elements (get payload "services_affected")
  let servicesAffected ← services.mapM requiredStr
  let rootCauseCandidates ← rcaCandidatesFrom rt (get payload "root_cause_candidates")
  let absence ← elements (get payload "absence_candidates")
  return {
    schemaVersion := schemaVersion
    scope := str rt (orElse (get payload "scope") (.str scope))
    window := windowFromMapping rt (get payload "window")
      (rt.isoformat rt.zones.start windowStart) (rt.isoformat rt.zones.stop windowEnd)
    confidence := confidence
    summary := if summaryText = "" then shortSummary rt prose else summaryText
    trigger := trigger
    primaryCluster := primary
    secondaryClusters := secondary
    evidence := evidence
    llm := llmFromMode rt mode (llmRequested rt.settings noLlm llmProvider) llmProvider
    renderedText := prose
    markdown := none
    cached := true
    totalLogs := totalLogs
    mode := mode
    servicesAffected := servicesAffected
    predictedRootCause := isText (get payload "predicted_root_cause")
    rootCauseCandidates := rootCauseCandidates
    predictedRootCauseConfidence := isNumber (get payload "predicted_root_cause_confidence")
    absenceCandidates := absence.filterMap isText }

end Values

/-! Dumps. -/

def ofText (s : Option String) : Json := (s.map Json.str).getD .null

def ofInt (n : Option ℤ) : Json := (n.map Json.int).getD .null

def ofFloat (x : Option ℚ) : Json := (x.map Json.float).getD .null

def ofTexts (l : List String) : Json := .arr (l.map Json.str)

/-- A field that may be left out where it was not given. -/
def given (excludeUnset : Bool) (key : String) (s : Option String) : Fields :=
  if excludeUnset && s.isNone then [] else [(key, ofText s)]

def ClusterEvidence.dump (c : ClusterEvidence) : Json :=
  .obj [("fingerprint", ofText c.fingerprint), ("template", ofText c.template),
    ("count", ofInt c.count), ("baseline_count", ofInt c.baselineCount),
    ("change_ratio", ofFloat c.changeRatio), ("services", ofTexts c.services),
    ("levels", ofTexts c.levels), ("first_seen", ofText c.firstSeen),
    ("last_seen", ofText c.lastSeen), ("message", ofText c.message)]

/-- Only a calibrated confidence was given its flag. -/
def Confidence.dump (excludeUnset : Bool) (c : Confidence) : Json :=
  .obj ([("label", .str c.label), ("score", .float c.score)] ++
    if excludeUnset && !c.calibrated then [] else [("calibrated", .bool c.calibrated)])

def TriggerInfo.dump (t : TriggerInfo) : Json :=
  .obj [("detected", .bool t.detected), ("type", ofText t.type), ("service", ofText t.service),
    ("at", ofText t.occurredAt), ("correlation", ofText t.correlation)]

def EvidenceItem.dump (excludeUnset : Bool) (e : EvidenceItem) : Json :=
  .obj ([("kind", .str e.kind), ("detail", .str e.detail)] ++ given excludeUnset "ref" e.ref ++
    given excludeUnset "source_ref" e.sourceRef)

def LlmProvenance.dump (l : LlmProvenance) : Json :=
  .obj [("used", .bool l.used), ("provider", .str l.provider), ("model", .str l.model),
    ("fell_back", .bool l.fellBack)]

def RootCauseCandidate.dump (c : RootCauseCandidate) : Json :=
  .obj [("service", .str c.service), ("score", .float c.score),
    ("modalities", ofTexts c.modalities),
    ("evidence", .arr (c.evidence.map fun e =>
      .obj [("modality", .str e.modality), ("detail", .str e.detail)]))]

/-- A body by the names of its schema. -/
def ExplainResponse.modelDump (excludeUnset : Bool) (b : ExplainResponse) : Fields :=
  [("schema_version", .str b.schemaVersion), ("scope", .str b.scope),
    ("window", .obj [("from", .str b.window.start), ("to", .str b.window.stop)]),
    ("confidence", b.confidence.dump excludeUnset), ("summary", .str b.summary),
    ("trigger", b.trigger.dump),
    ("primary_cluster", (b.primaryCluster.map ClusterEvidence.dump).getD .null),
    ("secondary_clusters", .arr (b.secondaryClusters.map ClusterEvidence.dump)),
    ("evidence", .arr (b.evidence.map (EvidenceItem.dump excludeUnset))),
    ("llm", b.llm.dump), ("rendered_text", .str b.renderedText)] ++
  given excludeUnset "markdown" b.markdown ++
  [("cached", .bool b.cached), ("total_logs", .int b.totalLogs), ("mode", .str b.mode),
    ("services_affected", ofTexts b.servicesAffected),
    ("predicted_root_cause", ofText b.predictedRootCause),
    ("root_cause_candidates", .arr (b.rootCauseCandidates.map RootCauseCandidate.dump)),
    ("predicted_root_cause_confidence", ofFloat b.predictedRootCauseConfidence),
    ("absence_candidates", ofTexts b.absenceCandidates), ("structural", .null)]

/-- What the route stores of a body. -/
def ExplainResponse.cachePayload (b : ExplainResponse) : Fields :=
  (b.modelDump true).filter fun f => f.1 ∉ ["cached", "markdown", "structural"]

end Raglogs.ExplainSchema
