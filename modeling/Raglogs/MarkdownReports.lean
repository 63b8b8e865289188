import Raglogs.Explanations

/-!
The markdown report of an explanation. What is told by the rows stands in it on one line each,
with its marks escaped or as inline code. A report of a cached body is made from the members of
that body, so it has no importance, and at most one trigger, told by its type.
-/

namespace Raglogs.MarkdownReports

open Doubles ExplainSchema Explanations LogEntries Text Wording

/-- The words of a text. -/
def words (l : List Char) : List (List Char) :=
  (l.splitOnP isSpace).filter fun word => !word.isEmpty

/-- The words of a text with one space between two of them. -/
def collapsed (text : String) : List Char := [' '].intercalate (words text.toList)

def mdSpecial : List Char := ['\\', '`', '*', '_', '{', '}', '[', ']', '<', '>', '|', '#']

def escapeChars (l : List Char) : List Char :=
  l.flatMap fun c => if mdSpecial.contains c then ['\\', c] else [c]

/-- Escape the marks of a text, on one line. -/
def escapeMd (text : String) : String := String.ofList (escapeChars (collapsed text))

/-- The longest run of backticks, behind a run of some. -/
def longestRun : ℕ → List Char → ℕ
  | run, [] => run
  | run, '`' :: rest => longestRun (run + 1) rest
  | run, _ :: rest => max run (longestRun 0 rest)

/-- The characters of an inline code, between enough backticks. -/
def codeChars (l : List Char) : List Char :=
  let ticks := List.replicate (longestRun 0 l + 1) '`'
  let padLeft := if l.head? = some '`' then [' '] else []
  let padRight := if l.getLast? = some '`' then [' '] else []
  ticks ++ padLeft ++ l ++ padRight ++ ticks

/-- Wrap a text in inline code, on one line. -/
def inlineCode (text : String) : String :=
  if collapsed text = [] then "` `" else String.ofList (codeChars (collapsed text))

def singleLine (text : String) : String := trunc (String.ofList (collapsed text)) 100

def rstrip (s : String) : String := String.ofList ((s.toList.reverse.dropWhile isSpace).reverse)

/-- A length of time, the seconds of a day or more left out. -/
def humanDuration (delta : ℤ) : String :=
  let total := (roundHalfEven ((delta : ℚ) / 1000000)).natAbs
  if total = 0 then "0s"
  else
    let days := total / 86400
    let hours := total % 86400 / 3600
    let minutes := total % 3600 / 60
    let seconds := total % 60
    let parts := (if days ≠ 0 then [toString days ++ "d"] else []) ++
      (if hours ≠ 0 then [toString hours ++ "h"] else []) ++
      (if minutes ≠ 0 then [toString minutes ++ "m"] else []) ++
      (if seconds ≠ 0 ∧ days = 0 then [toString seconds ++ "s"] else [])
    if parts = [] then "0s" else " ".intercalate parts

section Report

variable (rt : Runtime)

def formatWindowMeta (start stop : Timestamp) : String :=
  rt.isoformat rt.zones.start start ++ " → " ++ rt.isoformat rt.zones.stop stop ++ " (" ++
    humanDuration (stop - start) ++ ")"

/-- The message of the primary cluster, or a line of the summary. -/
def title (result : ExplainResult) : String :=
  let message := get (result.primaryCluster.getD []) "message"
  if isTruthy message then singleLine (str rt message)
  else
    match ((Push.splitlines result.summaryText).map strip).find? fun line => line ≠ "" &&
        !(["incident summary", "incident report"].contains (rt.lowering.lower line)) &&
          !startsWith (rt.lowering.lower line) "window:" with
    | some line => singleLine line
    | none => "Untitled incident"

def bullet (name text : String) : String := "- **" ++ name ++ ":** " ++ text

def metadataLines (result : ExplainResult) (environment : Option String) : List String :=
  let services :=
    if result.servicesAffected.isEmpty then "none"
    else ", ".intercalate result.servicesAffected
  [bullet "Window" (formatWindowMeta rt result.windowStart result.windowEnd),
    bullet "Services" (escapeMd services)] ++
  (truthy environment).toList.map (fun env => bullet "Environment" (escapeMd env)) ++
  [bullet "Total logs" (toString result.totalLogs),
    bullet "Confidence" (escapeMd result.confidence), bullet "Mode" (escapeMd result.mode)]

/-- A line for a value that a truth test accepts. -/
def truthyLine (name : String) (shape : String → String) (v : Json) : List String :=
  if isTruthy v then [bullet name (shape (str rt v))] else []

/-- A line for a value that is given. -/
def givenLine (name : String) (v : Json) : List String :=
  if Push.isNull v then [] else [bullet name (str rt v)]

/-- The elements of a value that is a list, or none. -/
def listOf (v : Json) : List Json := (elements v).toOption.getD []

def servicesOf (cluster : Fields) : List String :=
  (listOf (get cluster "services")).map fun s => escapeMd (str rt s)

def primaryClusterSection (cluster : Fields) : List String :=
  if cluster.isEmpty then []
  else
    ["## Primary cluster", ""] ++
    truthyLine rt "Fingerprint" inlineCode (get cluster "fingerprint") ++
    givenLine rt "Count" (get cluster "count") ++
    givenLine rt "Importance" (get cluster "importance_score") ++
    truthyLine rt "Message" inlineCode (get cluster "message") ++
    (if servicesOf rt cluster = [] then []
      else [bullet "Services" (", ".intercalate (servicesOf rt cluster))]) ++
    truthyLine rt "First seen" escapeMd (get cluster "first_seen") ++
    truthyLine rt "Last seen" escapeMd (get cluster "last_seen") ++
    givenLine rt "Baseline count" (get cluster "baseline_count") ++
    givenLine rt "Change ratio" (get cluster "change_ratio") ++ [""]

/-- Whether a value equals the number one. -/
def isOne : Json → Bool
  | .int n => n == 1
  | .float x => x == 1
  | .bool b => b
  | _ => false

def secondaryLine (cluster : Fields) : String :=
  let count := orElse (get cluster "count") (.int 0)
  let fingerprint := get cluster "fingerprint"
  let extras :=
    (if isTruthy fingerprint then [inlineCode (str rt fingerprint)] else []) ++
    (if servicesOf rt cluster = [] then [] else [", ".intercalate (servicesOf rt cluster)])
  "- " ++ inlineCode (str rt (orElse (get cluster "message") (.str ""))) ++ " — " ++
    str rt count ++ " " ++ (if isOne count then "event" else "events") ++
    (if extras = [] then "" else " (" ++ "; ".intercalate extras ++ ")")

def secondaryClustersSection (clusters : List Fields) : List String :=
  if clusters.isEmpty then []
  else ["## Secondary clusters", ""] ++ clusters.map (secondaryLine rt) ++ [""]

def triggerLine (trigger : Fields) : String :=
  let time := escapeMd (str rt (orElse (get trigger "timestamp") (.str "unknown time")))
  let message := inlineCode (str rt (orElse (get trigger "message") (.str "")))
  let service := get trigger "service"
  if isTruthy service then "- " ++ time ++ " · " ++ escapeMd (str rt service) ++ " — " ++ message
  else "- " ++ time ++ " — " ++ message

def triggerCandidatesSection (triggers : List Fields) : List String :=
  if triggers.isEmpty then []
  else ["## Trigger candidates", ""] ++ triggers.map (triggerLine rt) ++ [""]

def evidenceSection (items : List String) : List String :=
  if items.isEmpty then [] else items.map (fun item => "- " ++ escapeMd item) ++ [""]

def reproduceSection (reproduceCmd : Option String) : List String :=
  match truthy reproduceCmd with
  | some cmd =>
      ["## Reproduce", "",
        "Operators can redirect this command to a file for tickets and postmortems:", "",
        "```bash", cmd, "```", "", "`" ++ cmd ++ " > postmortem.md`", ""]
  | none => []

/-- The lines of a report. -/
def reportLines (result : ExplainResult) (reproduceCmd environment : Option String) :
    List String :=
  ["# Incident report", "", escapeMd (title rt result), ""] ++
  metadataLines rt result environment ++
  ["", "## Summary", "", rstrip result.summaryText, "", "## Evidence", ""] ++
  evidenceSection result.evidenceItems ++
  primaryClusterSection rt (result.primaryCluster.getD []) ++
  secondaryClustersSection rt result.secondaryClusters ++
  triggerCandidatesSection rt result.triggerCandidates ++ reproduceSection reproduceCmd

def renderIncidentReport (result : ExplainResult) (reproduceCmd environment : Option String) :
    String :=
  rstrip ("\n".intercalate (reportLines rt result reproduceCmd environment)) ++ "\n"

/-! The report of a body. -/

def confidenceLabel (payload : Fields) : String :=
  match get payload "confidence" with
  | .obj conf => str rt (orElse (get conf "label") (.str "low"))
  | conf => str rt (orElse conf (.str "low"))

def evidenceString : Json → String
  | .obj item => str rt (orElse (get item "detail") (.obj item))
  | item => str rt item

/-- The template stands in for a message that is missing. -/
def primaryForMarkdown (payload : Fields) : Option Fields :=
  (objectOf (get payload "primary_cluster")).map fun pc =>
    if isTruthy (get pc "message") || !isTruthy (get pc "template") then pc
    else ("message", get pc "template") :: pc.filter fun f => f.1 ≠ "message"

def triggerCandidatesForMarkdown (payload : Fields) : List Fields :=
  match get payload "trigger_candidates" with
  | .arr (first :: rest) => (first :: rest).filterMap objectOf
  | _ =>
      match get payload "trigger" with
      | .obj trigger =>
          if isTruthy (get trigger "detected") then
            [[("message", orElse (get trigger "type") (orElse (get trigger "detail") (.str ""))),
              ("timestamp", get trigger "at"), ("service", get trigger "service")]]
          else []
      | _ => []

/-- An explanation made again from the members of a body, to be reported. -/
def explainResultFromPayload (payload : Fields) (windowStart windowEnd : Timestamp) :
    Except PayloadError ExplainResult := do
  let evidence ← elements (get payload "evidence")
  let services ← elements (get payload "services_affected")
  let servicesAffected ← services.mapM requiredStr
  let secondary ← elements (get payload "secondary_clusters")
  let totalLogs ← toInt rt (orElse (get payload "total_logs") (.int 0))
  return {
    windowStart := windowStart
    windowEnd := windowEnd
    summaryText := str rt (orElse (get payload "rendered_text")
      (orElse (get payload "summary") (.str "")))
    confidence := confidenceLabel rt payload
    evidenceItems := evidence.map (evidenceString rt)
    servicesAffected := servicesAffected
    primaryCluster := primaryForMarkdown payload
    secondaryClusters := secondary.filterMap objectOf
    triggerCandidates := triggerCandidatesForMarkdown payload
    totalLogs := totalLogs
    mode := str rt (orElse (get payload "mode") (.str "rules"))
    predictedRootCause := none
    rootCauseCandidates := []
    generatedCandidates := []
    absenceCandidates := []
    predictedRootCauseConfidence := none
    confidenceCalibrated := false }

end Report

end Raglogs.MarkdownReports
