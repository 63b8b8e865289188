import Raglogs.Timestamps

/-!
The parsers of single log lines. A JSON object gives its fields under their aliases,
a plain-text line is matched against the common shapes of log lines. A container
runtime's or a cluster tool's prefix is taken off and the rest is parsed again.
-/

namespace Raglogs.Parsing

open LogEntries Normalization Regex Regex.Pattern Text Timestamps

structure ParsedLogLine where
  rawLine : String
  timestamp : Option Timestamp
  level : Option String
  service : Option String
  environment : Option String
  traceId : Option String
  requestId : Option String
  host : Option String
  message : Option String
  extra : List (String × Json)
  parserType : String
  parseError : Option String

/-- A parsed line before any field is set. -/
def ParsedLogLine.ofRaw (rawLine parserType : String) : ParsedLogLine where
  rawLine := rawLine
  timestamp := none
  level := none
  service := none
  environment := none
  traceId := none
  requestId := none
  host := none
  message := none
  extra := []
  parserType := parserType
  parseError := none

/-- The first string if it is truthy, else the second. -/
def orElse (first second : Option String) : Option String :=
  match truthy first with
  | some s => some s
  | none => second

/-! Fields of a JSON object. -/

def timestampFields : List String :=
  ["timestamp", "ts", "time", "@timestamp", "datetime", "date", "log_timestamp"]

def messageFields : List String :=
  ["message", "msg", "log", "text", "body", "content", "log_message"]

def levelFields : List String := ["level", "severity", "log_level", "loglevel", "lvl", "priority"]

def serviceFields : List String :=
  ["service", "app", "logger", "component", "application", "service_name", "app_name", "source"]

def environmentFields : List String := ["environment", "env", "deployment", "stage", "namespace"]

def traceIdFields : List String := ["trace_id", "traceId", "trace", "x_trace_id", "X-Trace-Id"]

def requestIdFields : List String :=
  ["request_id", "requestId", "req_id", "reqId", "correlation_id", "correlationId"]

def hostFields : List String := ["host", "hostname", "server", "instance", "pod", "node"]

def knownFields : List String :=
  timestampFields ++ messageFields ++ levelFields ++ serviceFields ++ environmentFields ++
    traceIdFields ++ requestIdFields ++ hostFields

def levelNormalizations : List (String × String) := [
  ("fatal", "fatal"), ("critical", "fatal"), ("crit", "fatal"), ("error", "error"),
  ("err", "error"), ("warn", "warn"), ("warning", "warn"), ("info", "info"),
  ("information", "info"), ("informational", "info"), ("debug", "debug"), ("dbg", "debug"),
  ("trace", "debug"), ("verbose", "debug")]

/-- What a truth test of a value gives. -/
def isTruthy : Json → Bool
  | .null => false
  | .bool b => b
  | .int n => n ≠ 0
  | .float x => x ≠ 0
  | .str s => s ≠ ""
  | .arr items => !items.isEmpty
  | .obj fields => !fields.isEmpty

/-- The first value if it is truthy, else the second. -/
def orValue (first second : Json) : Json := if isTruthy first then first else second

/-- A key of an object, or null. -/
def getKey (data : List (String × Json)) (key : String) : Json := (data.lookup key).getD .null

section Lines

variable (rt : Runtime)

/-- The value of the first alias that the object has, in any case. -/
def extractField (data : List (String × Json)) : List String → Json
  | [] => .null
  | field :: rest =>
      match data.lookup field with
      | some value => value
      | none =>
          match data.find? (fun entry => rt.lowering.lower entry.1 == rt.lowering.lower field) with
          | some entry => entry.2
          | none => extractField data rest

/-- A level in its standard form. -/
def normalizeLevel (level : String) : String :=
  if level = "" then "info"
  else
    let lowered := strip (rt.lowering.lower level)
    (levelNormalizations.lookup lowered).getD lowered

/-- The text of a value. -/
def textOf : Json → String
  | .null => "None"
  | .bool b => if b then "True" else "False"
  | .int n => toString n
  | .str s => s
  | value => rt.repr value

def truthyText (value : Json) : Option String :=
  if isTruthy value then some (textOf rt value) else none

/-- What a cluster's object says of the service, the environment and the host. -/
structure KubernetesFields where
  service : Json
  environment : Json
  host : Json

/-- Map the nested object of a cluster's log collector onto fields. -/
def extractKubernetesFields (data : List (String × Json)) : KubernetesFields :=
  match getKey data "kubernetes" with
  | .obj k8s =>
      let service : Json :=
        match orValue (orValue (getKey k8s "labels") (getKey k8s "pod_labels")) (.obj []) with
        | .obj labels =>
            orValue (orValue (getKey labels "app") (getKey labels "app.kubernetes.io/name"))
              (getKey labels "k8s-app")
        | _ => .null
      { service := orValue (orValue service (getKey k8s "container_name")) (getKey k8s "container")
        environment := orValue (orValue (getKey k8s "namespace_name") (getKey k8s "pod_namespace"))
          (getKey k8s "namespace")
        host := orValue (orValue (getKey k8s "pod_name") (getKey k8s "pod")) (getKey k8s "host") }
  | _ => ⟨.null, .null, .null⟩

structure ExtractedFields where
  timestampRaw : Json
  message : Json
  level : Option String
  service : Json
  environment : Json
  traceId : Json
  requestId : Json
  host : Json
  extra : List (String × Json)

/-- Extract all known fields of an object; what is left is extra. -/
def extractAllFields (data : List (String × Json)) : ExtractedFields :=
  let k8sFields := extractKubernetesFields data
  let levelRaw := extractField rt data levelFields
  { timestampRaw := extractField rt data timestampFields
    message := extractField rt data messageFields
    level := if isTruthy levelRaw then some (normalizeLevel rt (textOf rt levelRaw)) else none
    service := orValue (extractField rt data serviceFields) k8sFields.service
    environment := orValue (extractField rt data environmentFields) k8sFields.environment
    traceId := extractField rt data traceIdFields
    requestId := extractField rt data requestIdFields
    host := orValue (extractField rt data hostFields) k8sFields.host
    extra := data.filter (fun entry => !knownFields.contains entry.1) }

/-- The service of a JSON line: its own if truthy, else the default. -/
def jsonService (service : Json) (defaultService : Option String) : Option String :=
  if isTruthy service then some (textOf rt service) else defaultService

/-- A JSON line that is an object. -/
def parseJsonObject (line : String) (data : List (String × Json)) (defaultService : Option String) :
    Except Raised ParsedLogLine := do
  let fields := extractAllFields rt data
  let timestamp ← parseTimestampField rt fields.timestampRaw
  return {
    rawLine := line
    timestamp := timestamp
    level := fields.level
    service := jsonService rt fields.service defaultService
    environment := truthyText rt fields.environment
    traceId := truthyText rt fields.traceId
    requestId := truthyText rt fields.requestId
    host := truthyText rt fields.host
    message :=
      match fields.message with
      | .null => some line
      | message => some (textOf rt message)
    extra := fields.extra
    parserType := "json"
    parseError := none }

/-- A JSON line that cannot be parsed. -/
def failedJson (line reason : String) : ParsedLogLine :=
  { ParsedLogLine.ofRaw line "json" with parseError := some reason }

/-- Parse a single JSON log line. -/
def parseJsonLine (line : String) (defaultService : Option String) :
    Except Raised (Option ParsedLogLine) :=
  if strip line = "" then .ok none
  else
    match rt.loads (strip line) with
    | .error reason => return some (failedJson (strip line) ("JSON parse error: " ++ reason))
    | .ok (.obj data) => do
        let parsed ← parseJsonObject rt (strip line) data defaultService
        return some parsed
    | .ok _ => return some (failedJson (strip line) "JSON line is not an object")

/-! Plain text. -/

def warning : Pattern := .seq (lit "WARN") (opt (lit "ING"))

def levelNames : Pattern :=
  anyOf [lit "FATAL", lit "CRITICAL", lit "ERROR", lit "ERR", warning,
    .seq (lit "INFO") (opt (.seq (lit "RMATION") (opt (lit "AL")))), lit "DEBUG", lit "TRACE",
    lit "VERBOSE"]

def levelPattern : Pattern := concat [.boundary rt.isWord, levelNames, .boundary rt.isWord]

/-- One word, or two with one white space between them. -/
def oneOrTwoWords : Pattern := .seq nonSpaces (opt (.seq space nonSpaces))

def restOfLine : Pattern := plus (.char (fun c => c != '\n'))

def structuredTextPattern : Pattern :=
  concat [.start, .group "ts" oneOrTwoWords, spaces, .group "level" levelNames, spaces,
    .group "service" nonSpaces, spaces, .group "message" restOfLine, .finish]

/-- The shape of a line whose timestamp a container runtime has taken off. -/
def levelServicePattern : Pattern :=
  concat [.start, .group "level" levelNames, spaces, .group "service" nonSpaces, spaces,
    .group "message" restOfLine, .finish]

/-- The shape of a line whose service is known. -/
def tsLevelMessagePattern : Pattern :=
  concat [.start, .group "ts" oneOrTwoWords, spaces, .group "level" levelNames, spaces,
    .group "message" restOfLine, .finish]

def bracketPattern : Pattern :=
  concat [.start, ofChar '[', .group "ts" (plus (.char (fun c => c != ']'))), ofChar ']',
    .star space, opt (ofChar '['),
    .group "level" (anyOf [lit "FATAL", lit "CRITICAL", lit "ERROR", lit "ERR", warning,
      lit "INFO", lit "DEBUG", lit "TRACE"]),
    opt (ofChar ']'), .star space, .group "message" restOfLine, .finish]

/-- What a container runtime puts before a message. -/
def criHead : Pattern :=
  concat [.start,
    .group "ts" (concat [calendarDate, ofChar 'T', clock, fraction,
      .alt (ofChar 'Z') (concat [oneOf ['+', '-'], exactly 2 digit, ofChar ':',
        exactly 2 digit])]),
    spaces, .group "stream" (.alt (exact "stdout") (exact "stderr")), spaces,
    .group "tag" (oneOf ['F', 'P']), spaces]

def criPattern : Pattern :=
  .seq criHead (.seq (.group "msg" (.star (.char (fun c => c != '\n')))) .finish)

/-- What a cluster tool puts before a line. -/
def kubectlHead : Pattern :=
  let name := plus (.char (fun c => rt.isWord c || c == '.' || c == '-'))
  concat [.start, ofChar '[', opt (.seq (.group "namespace" name) (ofChar '/')),
    .group "pod" name, ofChar '/', .group "container" name, ofChar ']', spaces]

def kubectlPattern : Pattern :=
  .seq (kubectlHead rt) (.seq (.group "rest" (.star (.char (fun c => c != '\n')))) .finish)

/-- The timestamp in the group for it, if the shape has one. -/
def groupTimestamp (m : Match) : Except Raised (Option Timestamp) :=
  match m.named "ts" with
  | some ts => extractTimestamp rt ts
  | none => .ok none

/-- A text line of a shape whose groups are named. -/
def parseGroups (line : String) (m : Match) (defaultService : Option String) :
    Except Raised ParsedLogLine := do
  let timestamp ← groupTimestamp rt m
  return { ParsedLogLine.ofRaw line "text" with
    timestamp := timestamp
    level := (m.named "level").map (normalizeLevel rt)
    service := orElse (m.named "service") defaultService
    message := orElse ((m.named "message").map strip) (some line) }

/-- The line without the words at its start that a timestamp may take. -/
def withoutTimestamp (line : String) : String :=
  let words := if (take 30 line).toList.contains ' ' then oneOrTwoWords else nonSpaces
  strip ((concat [.start, words, .star space]).replaceAll (fun _ => "") line)

/-- A text line of no known shape: a timestamp and a level anywhere in it. -/
def parseAnyText (line : String) (defaultService : Option String) :
    Except Raised ParsedLogLine := do
  let timestamp ← extractTimestamp rt line
  let message := if timestamp.isSome then withoutTimestamp line else line
  return { ParsedLogLine.ofRaw line "text" with
    timestamp := timestamp
    level := ((levelPattern rt).search line).map
      (fun found => normalizeLevel rt (found.1.between found.2.cursor))
    service := defaultService
    message := some (if message = "" then line else message) }

/-- The match of a known shape of a text line. -/
def matchShape (line : String) (inferService criUnwrapped : Bool) : Option Match :=
  let shape :=
    if inferService then
      match structuredTextPattern.matchStart line with
      | some m => some m
      | none => if criUnwrapped then levelServicePattern.matchStart line else none
    else tsLevelMessagePattern.matchStart line
  match shape with
  | some m => some m
  | none => bracketPattern.matchStart line

/-- A text line without a prefix. -/
def parsePlainText (line : String) (defaultService : Option String)
    (inferService criUnwrapped : Bool) : Except Raised ParsedLogLine :=
  match matchShape line inferService criUnwrapped with
  | some m => parseGroups rt line m defaultService
  | none => parseAnyText rt line defaultService

/-! Lines with a prefix. -/

/-- What is behind a prefix is shorter than the text. -/
theorem length_behind_lt {r s : Pattern} {text name : String} {m : Match}
    (hmatch : (Pattern.seq r s).matchStart text = some m) (hname : name ∉ r.names)
    (hwidth : 0 < r.minWidth) : ((m.named name).getD "").length < text.length := by
  cases hgroup : m.named name with
  | none => exact lt_of_lt_of_le (Nat.add_pos_left hwidth _) (matchStart_width hmatch)
  | some group => exact length_named_lt hmatch hgroup hname hwidth

theorem message_notMem_criHead : "msg" ∉ criHead.names := by
  change "msg" ∉ ["ts", "stream", "tag"]
  decide

theorem rest_notMem_kubectlHead : "rest" ∉ (kubectlHead rt).names := by
  change "rest" ∉ ["namespace", "pod", "container"]
  decide

theorem criHead_minWidth_pos : 0 < criHead.minWidth := by decide

theorem kubectlHead_minWidth_pos : 0 < (kubectlHead rt).minWidth := by
  change 0 < 6
  decide

/-- A match whose named group is shorter than the text. -/
abbrev ShorteningMatch (name text : String) : Type :=
  { m : Match // ((m.named name).getD "").length < text.length }

def matchCri (text : String) : Option (ShorteningMatch "msg" text) :=
  match hmatch : criPattern.matchStart text with
  | none => none
  | some m => some ⟨m, length_behind_lt hmatch message_notMem_criHead criHead_minWidth_pos⟩

def matchKubectl (text : String) : Option (ShorteningMatch "rest" text) :=
  match hmatch : (kubectlPattern rt).matchStart text with
  | none => none
  | some m =>
      some ⟨m, length_behind_lt hmatch (rest_notMem_kubectlHead rt) (kubectlHead_minWidth_pos rt)⟩

/-- A line behind a container runtime's prefix. -/
def fromCri (line : String) (criTs : Option Timestamp) (message : String)
    (defaultService : Option String) : Option ParsedLogLine → ParsedLogLine
  | none =>
      { ParsedLogLine.ofRaw line "text" with
        timestamp := criTs
        service := defaultService
        message := some message }
  | some inner => { inner with timestamp := inner.timestamp.or criTs, rawLine := line }

/-- A line behind a cluster tool's prefix. The prefix names the container. -/
def fromKubectl (line : String) (m : Match) (defaultService : Option String) :
    Option ParsedLogLine → ParsedLogLine
  | none =>
      { ParsedLogLine.ofRaw line "text" with
        service := orElse defaultService (m.named "container")
        host := m.named "pod"
        environment := m.named "namespace"
        message := some ((m.named "rest").getD "") }
  | some inner =>
      { inner with
        service := orElse (m.named "container") (orElse inner.service defaultService)
        host := orElse (m.named "pod") inner.host
        environment := orElse (m.named "namespace") inner.environment
        rawLine := line }

/-- A parser of the shorter texts behind a prefix. -/
abbrev RestParser (line : String) : Type :=
  ∀ rest : String, rest.length < line.length → Option String → Bool → Bool →
    Except Raised (Option ParsedLogLine)

/-- Parse a plain-text line, given a parser for what is behind a prefix. -/
def parseTextLineBy (line : String) (parseRest : RestParser line) (defaultService : Option String)
    (inferService criUnwrapped : Bool) : Except Raised (Option ParsedLogLine) :=
  if strip line = "" then .ok none
  else
    match matchCri (strip line) with
    | some ⟨m, hshorter⟩ => do
        let criTs ← extractTimestamp rt ((m.named "ts").getD "")
        let message := (m.named "msg").getD ""
        let inner ← parseRest message (lt_of_lt_of_le hshorter (length_strip_le line))
          defaultService inferService true
        return some (fromCri (strip line) criTs message defaultService inner)
    | none =>
        match matchKubectl rt (strip line) with
        | some ⟨m, hshorter⟩ => do
            let inner ← parseRest ((m.named "rest").getD "")
              (lt_of_lt_of_le hshorter (length_strip_le line))
              (orElse defaultService (m.named "container")) false false
            return some (fromKubectl (strip line) m defaultService inner)
        | none => do
            let parsed ← parsePlainText rt (strip line) defaultService inferService criUnwrapped
            return some parsed

/-- Parse a single plain-text log line. -/
def parseTextLine (line : String) (defaultService : Option String)
    (inferService criUnwrapped : Bool) : Except Raised (Option ParsedLogLine) :=
  parseTextLineBy rt line (fun rest _ => parseTextLine rest) defaultService inferService
    criUnwrapped
termination_by line.length

end Lines

end Raglogs.Parsing
