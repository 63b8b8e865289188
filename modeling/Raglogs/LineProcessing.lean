import Raglogs.Ingestion
import Raglogs.Parsing

/-!
From a raw line to a row of the log entries, and the calls of the ingestion service
with the lines they process. The database rejects a row with a string longer than
its column or with a NUL character.
-/

namespace Raglogs.LineProcessing

open Ingestion LogEntries Normalization Parsing Regex Regex.Pattern Text Timestamps

/-- What a call fixes for a line besides its text. -/
structure LineContext where
  format : String
  defaultService : Option String
  defaultEnv : Option String
  ingestionJobId : ℕ
  sourceAdapter : String
  sourceRef : Option String
  receivedAt : Option Timestamp
  defaultHost : Option String
  extra : List (String × Json)
  scope : String

/-- A line as it is processed, with the identifier its row gets. -/
structure RawLine where
  id : EntryId
  text : String
  context : LineContext

section Rows

variable (rt : Runtime)

def parseLine (line format : String) (defaultService : Option String) :
    Except Raised (Option ParsedLogLine) :=
  if format = "json" then parseJsonLine rt line defaultService
  else parseTextLine rt line defaultService true false

/-- Whether a stripped text looks like a JSON object. -/
def isBraced (stripped : String) : Bool :=
  stripped.toList.head? == some '{' && stripped.toList.getLast? == some '}'

/-- Sniff the format of a line when there is no hint. -/
def resolveFmt (line format : String) : String :=
  if format ≠ "auto" then format
  else if isBraced (strip line) then "json"
  else "text"

/-- The keys of the first document with the values of the second, then the rest of the second. -/
def mergeExtra (first second : List (String × Json)) : List (String × Json) :=
  first.map (fun entry => (entry.1, (second.lookup entry.1).getD entry.2)) ++
    second.filter (fun entry => (first.lookup entry.1).isNone)

/-- The normal form of a parsed line's message, and its fingerprint. -/
def fingerprintParsed (parsed : ParsedLogLine) : String × String :=
  fingerprintMessage rt.isWord rt.sha256 (parsed.message.getD "")

/-- The row of a parsed line. -/
def logEntry (line : RawLine) (parsed : ParsedLogLine) : LogEntry :=
  let context := line.context
  let fingerprinted := fingerprintParsed rt parsed
  let extra := mergeExtra context.extra parsed.extra
  { id := line.id
    ingestionJobId := some context.ingestionJobId
    timestamp := parsed.timestamp.or context.receivedAt
    service := orElse parsed.service context.defaultService
    environment := orElse parsed.environment context.defaultEnv
    level := parsed.level
    traceId := parsed.traceId
    requestId := parsed.requestId
    host := orElse parsed.host context.defaultHost
    rawMessage := (truthy (some parsed.rawLine)).map (take 4096)
    normalizedMessage := (truthy (some fingerprinted.1)).map (take 2048)
    fingerprint := some fingerprinted.2
    parserType := some parsed.parserType
    extraJson := if extra = [] then none else some (.obj extra)
    sourceAdapter := context.sourceAdapter
    sourceRef := some (context.sourceRef.getD "")
    originalLineHash := some (rt.sha256 line.text)
    scope := if context.scope = "" then "default" else context.scope }

/-- Parse a line and build its row. An exception of the parser is an error of the line. -/
def processLine (line : RawLine) : LineOutcome LogEntry :=
  if strip line.text = "" then .blank
  else
    match parseLine rt line.text line.context.format line.context.defaultService with
    | .error _ => .error
    | .ok none => .blank
    | .ok (some parsed) =>
        if (truthy parsed.parseError).isSome then .error else .row (logEntry rt line parsed)

end Rows

/-! The table. -/

mutual

/-- No string of a document holds a NUL character, no key does either. -/
def jsonNulFree : Json → Bool
  | .str s => nulFree s
  | .arr items => itemsNulFree items
  | .obj fields => fieldsNulFree fields
  | _ => true

def itemsNulFree : List Json → Bool
  | [] => true
  | item :: rest => jsonNulFree item && itemsNulFree rest

def fieldsNulFree : List (String × Json) → Bool
  | [] => true
  | (key, value) :: rest => nulFree key && jsonNulFree value && fieldsNulFree rest

end

/-- Whether a text column takes a value; only some columns have a limit. -/
def takes (limit : Option ℕ) (value : Option String) : Bool :=
  match value with
  | none => true
  | some s =>
      nulFree s &&
        match limit with
        | none => true
        | some n => s.length ≤ n

/-- The text columns of the table with their limits, and the values of a row there. -/
def textColumns (e : LogEntry) : List (Option ℕ × Option String) := [
  (some 255, e.service),
  (some 100, e.environment),
  (some 50, e.level),
  (some 255, e.traceId),
  (some 255, e.requestId),
  (some 255, e.host),
  (none, e.rawMessage),
  (none, e.normalizedMessage),
  (some 64, e.fingerprint),
  (some 50, e.parserType),
  (some 50, some e.sourceAdapter),
  (none, e.sourceRef),
  (some 64, e.originalLineHash),
  (some 255, some e.scope)]

def takesDocument (document : Option Json) : Bool :=
  match document with
  | none => true
  | some json => jsonNulFree json

/-- Whether the table takes a row. -/
def takesEntry (e : LogEntry) : Bool :=
  (textColumns e).all (fun column => takes column.1 column.2) && takesDocument e.extraJson

/-- Who refuses a row. The client does not send a text with a NUL character; a document is
sent as text without one, and its escapes are for the database to refuse. -/
def entryRefusal (e : LogEntry) : Option Refusal :=
  if takesEntry e then none
  else if (textColumns e).all (fun column => takes none column.2) then some .database
  else some .client

/-- The key of the unique index, on the rows that it covers. -/
abbrev EntryKey := String × String × String × Timestamp

def dedupKey (e : LogEntry) : Option EntryKey :=
  match e.originalLineHash, e.timestamp, e.sourceRef with
  | some hash, some t, some sourceRef => some (e.scope, sourceRef, hash, t)
  | _, _, _ => none

/-- The pipeline of the service for lines that `prepare` gives their context. -/
def pipeline {α : Type} (rt : Runtime) (batchSize : ℕ) (prepare : α → RawLine) :
    Pipeline α LogEntry EntryKey where
  batchSize := batchSize
  processLine line := processLine rt (prepare line)
  service := LogEntry.service
  key := dedupKey
  refusal := entryRefusal

theorem pipeline_accepts {α : Type} (rt : Runtime) (batchSize : ℕ) (prepare : α → RawLine)
    (e : LogEntry) : (pipeline rt batchSize prepare).accepts e = takesEntry e := by
  change (entryRefusal e).isNone = _
  unfold entryRefusal
  cases takesEntry e
  · simp only [Bool.false_eq_true, if_false]
    split <;> rfl
  · rfl

/-! Files. -/

/-- A raw text and the identifier its row gets. -/
abbrev IncomingLine := EntryId × String

structure LogFile where
  path : String
  stem : String
  suffix : String
  lines : List IncomingLine

/-- The format of a file: the hint, or by its name, or by its first line that is not blank. -/
def detectFormat (file : LogFile) (hint : String) : String :=
  if hint ≠ "" ∧ hint ≠ "auto" then hint
  else if file.suffix ∈ [".json", ".jsonl", ".ndjson"] then "json"
  else
    match (file.lines.map (fun line => strip line.2)).find? (fun line => line ≠ "") with
    | some line => if isBraced line then "json" else "text"
    | none => "text"

/-- A service name from a file's name without its date and number. -/
def inferServiceFromFilename (stem : String) : Option String :=
  let separator := oneOf ['-', '_']
  let dated := concat [opt separator, exactly 4 digit, separator, exactly 2 digit, separator,
    exactly 2 digit, .star (.char (fun c => c != '\n')), .finish]
  let numbered := concat [opt separator, plus digit, .finish]
  let name := numbered.replaceAll (fun _ => "") (dated.replaceAll (fun _ => "") stem)
  truthy (some (stripChars ['-', '_'] name))

structure FilesRequest where
  paths : String
  files : List LogFile
  defaultService : Option String
  defaultEnv : Option String
  format : String
  ingestionJobId : ℕ
  scope : String

def FilesRequest.prepare (request : FilesRequest) (file : LogFile) (line : IncomingLine) :
    RawLine where
  id := line.1
  text := line.2
  context := {
    format := detectFormat file request.format
    defaultService := orElse request.defaultService (inferServiceFromFilename file.stem)
    defaultEnv := request.defaultEnv
    ingestionJobId := request.ingestionJobId
    sourceAdapter := "file"
    sourceRef := some file.path
    receivedAt := none
    defaultHost := none
    extra := []
    scope := request.scope }

def ingestLogFiles (rt : Runtime) (batchSize : ℕ) (rows : List LogEntry)
    (request : FilesRequest) : IngestRun LogEntry :=
  ingestFiles (pipeline rt batchSize Prod.snd) rows request.paths
    (request.files.map (fun file => (file.path, file.lines.map (request.prepare file))))
    request.scope

/-! Pushed lines. -/

structure PushRequest where
  rawLines : List IncomingLine
  defaultService : Option String
  defaultEnv : Option String
  format : String
  ingestionJobId : ℕ
  scope : String

def PushRequest.prepare (request : PushRequest) (line : IncomingLine) : RawLine where
  id := line.1
  text := line.2
  context := {
    format := resolveFmt line.2 request.format
    defaultService := request.defaultService
    defaultEnv := request.defaultEnv
    ingestionJobId := request.ingestionJobId
    sourceAdapter := "push"
    sourceRef := some "push"
    receivedAt := none
    defaultHost := none
    extra := []
    scope := request.scope }

def ingestPushedLines (rt : Runtime) (batchSize : ℕ) (rows : List LogEntry)
    (request : PushRequest) : IngestRun LogEntry :=
  ingestPushLines (pipeline rt batchSize request.prepare) rows request.rawLines request.scope

/-! Lines of an adapter. -/

/-- One unparsed line with its provenance, and the identifier its row gets. -/
structure RawLogLine where
  id : EntryId
  text : String
  sourceRef : String
  receivedAt : Option Timestamp
  defaultService : Option String
  defaultEnvironment : Option String
  defaultHost : Option String
  extra : List (String × Json)

structure AdapterRequest where
  source : SourceRequest RawLogLine
  service : Option String
  env : Option String
  format : String
  ingestionJobId : ℕ
  existingJob : Option IngestionJob
  finalize : Bool

def AdapterRequest.prepare (request : AdapterRequest) (raw : RawLogLine) : RawLine where
  id := raw.id
  text := raw.text
  context := {
    format := resolveFmt raw.text request.format
    defaultService := orElse request.service raw.defaultService
    defaultEnv := orElse request.env raw.defaultEnvironment
    ingestionJobId := request.ingestionJobId
    sourceAdapter := request.source.adapter
    sourceRef := some raw.sourceRef
    receivedAt := raw.receivedAt
    defaultHost := raw.defaultHost
    extra := raw.extra
    scope := request.source.scope }

def ingestAdapter (rt : Runtime) (batchSize : ℕ) (rows : List LogEntry)
    (request : AdapterRequest) : IngestRun LogEntry :=
  ingestFromSource (pipeline rt batchSize request.prepare) rows request.source request.existingJob
    request.finalize

end Raglogs.LineProcessing
