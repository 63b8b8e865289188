import Raglogs.Collections
import Raglogs.Durations
import Raglogs.Ingestion
import Raglogs.PagedReads

/-!
How the adapters read a stream page by page. The time-based one asks for the earliest
lines from an instant on and goes on behind the last one; the token-based ones follow
the tokens of the backend. Each leaves a resume cursor behind a page, or none when the
window is exhausted. What the backends answer is a parameter.
-/

namespace Raglogs.Paging

open Collections Durations Ingestion LogEntries PagedReads Text

/-- A line of an adapter with its provenance. -/
structure SourceLine where
  text : String
  sourceRef : String
  receivedAt : Option Timestamp
  defaultService : Option String
  defaultEnvironment : Option String
  defaultHost : Option String
deriving DecidableEq

/-- The pages of a read and how it ends. -/
structure Session (α : Type) where
  pages : Pages α String
  ending : Ending

/-- A read that stops before the first page. -/
def Session.stopped {α : Type} (ending : Ending) : Session α := ⟨[], ending⟩

/-- A page and the cursor set behind it, before the rest of a read. -/
def Session.behind {α : Type} (lines : List α) (cursor : Option String) (s : Session α) :
    Session α := ⟨(lines, cursor) :: s.pages, s.ending⟩

/-- The read of a stream from a cursor, as ingestion sees it. -/
def Session.toStreamRead {α : Type} (cursor : Option String) (s : Session α) : StreamRead α where
  lines := withCursors cursor s.pages
  ending := s.ending
  cursor := lastCursor cursor s.pages

/-! Integers in texts. -/

/-- The number that decimal digits write, with single underscores between them. -/
def readDigits : ℕ → Bool → List Char → Option ℕ
  | n, afterDigit, [] => if afterDigit then some n else none
  | n, afterDigit, c :: rest =>
      if c = '_' then
        if afterDigit then readDigits n false rest else none
      else
        match digitValue c with
        | some d => readDigits (10 * n + d) true rest
        | none => none

def readInt (s : String) : Option ℤ :=
  match (strip s).toList with
  | '-' :: digits => (readDigits 0 false digits).map fun n => -Int.ofNat n
  | '+' :: digits => (readDigits 0 false digits).map Int.ofNat
  | digits => (readDigits 0 false digits).map Int.ofNat

/-! Loki. -/

structure LokiStream where
  labels : List (String × String)
  values : List (String × String)

structure LokiPayload where
  resultType : Option String
  streams : List LokiStream

/-- A line of a stream, at an instant in nanoseconds. -/
structure LokiEntry where
  ts : ℤ
  labels : List (String × String)
  line : String

/-- The most lines of a page. -/
def pageSize : ℕ := 5000

def serviceLabels : List String := ["app", "service", "job"]

def envLabels : List String := ["namespace", "env", "environment"]

def hostLabels : List String := ["pod", "instance", "host", "node"]

def labelValue (labels : List (String × String)) (keys : List String) : Option String :=
  keys.findSome? fun key => truthy ((labels.lookup key).map strip)

def formatLabels (labels : List (String × String)) : String :=
  "\x7b" ++ ", ".intercalate
    ((sortOn Prod.fst labels).map fun label => label.1 ++ "=\"" ++ label.2 ++ "\"") ++ "\x7d"

/-- An instant in nanoseconds. The whole seconds are cut off towards zero. -/
def nsFromDatetime (t : Timestamp) : ℤ := t.tdiv 1000000 * 1000000000 + t.emod 1000000 * 1000

/-- The entries of a payload whose instants can be read. -/
def LokiPayload.entries (payload : LokiPayload) : List LokiEntry :=
  payload.streams.flatMap fun stream => stream.values.filterMap fun value =>
    (readInt value.1).map fun ts => ⟨ts, stream.labels, value.2⟩

/-- The stream to read: its query, and the limit that was asked for. -/
structure LokiRef where
  streamId : String
  limit : Option ℤ

/-- The limit of a page. -/
def LokiRef.pageLimit (ref : LokiRef) : ℕ :=
  match ref.limit with
  | none => pageSize
  | some 0 => pageSize
  | some limit => min (max limit 1).toNat pageSize

structure LokiBackend where
  baseUrl : String
  /-- The answer for a range of instants in nanoseconds, or why there is none. -/
  queryRange : ℤ → ℤ → ℕ → Except String LokiPayload
  /-- The date and time of an instant in nanoseconds. -/
  datetimeFromNs : ℤ → Timestamp

section Loki

variable (backend : LokiBackend) (ref : LokiRef)

def lokiLine (entry : LokiEntry) : SourceLine where
  text := entry.line
  sourceRef := if entry.labels = [] then ref.streamId else formatLabels entry.labels
  receivedAt := some (backend.datetimeFromNs entry.ts)
  defaultService := labelValue entry.labels serviceLabels
  defaultEnvironment := labelValue entry.labels envLabels
  defaultHost := labelValue entry.labels hostLabels

/-- Whether a result is of another type than streams. -/
def wrongResult (payload : LokiPayload) : Bool :=
  (truthy payload.resultType).any fun resultType => resultType ≠ "streams"

/-- The pages from an instant on. Each round starts later than the one before. -/
def lokiPages (stop : ℤ) : ℕ → ℤ → Session SourceLine
  | 0, _ => .stopped .exhausted
  | fuel + 1, start =>
      if stop ≤ start then .stopped .exhausted
      else
        match backend.queryRange start stop ref.pageLimit with
        | .error reason => .stopped (.unavailable reason)
        | .ok payload =>
            if wrongResult payload then
              .stopped (.unavailable ("Loki query returned resultType=" ++
                payload.resultType.getD "" ++ "; LogQL must select log streams, not metrics"))
            else
              let lines := payload.entries.map (lokiLine backend ref)
              let maxTs := (payload.entries.map LokiEntry.ts).foldl max start
              if payload.entries.length < ref.pageLimit then
                .behind lines none (.stopped .exhausted)
              else if maxTs + 1 ≤ start then
                -- the backend repeats a page
                .behind lines none (.stopped .exhausted)
              else .behind lines (some (toString (maxTs + 1))) (lokiPages stop fuel (maxTs + 1))

/-- The instant that a read starts at. -/
def lokiStart (window : TimeWindow) (cursor : Option String) : Option ℤ :=
  match truthy cursor with
  | none => some (nsFromDatetime window.start)
  | some text => readInt text

def lokiRead (window : TimeWindow) (cursor : Option String) : Session SourceLine :=
  if strip backend.baseUrl = "" then .stopped (.unavailable "loki adapter requires LOKI_URL")
  else
    match lokiStart window cursor with
    | none =>
        .stopped (.unavailable ("loki adapter resume cursor must be an integer " ++
          "nanosecond timestamp, got " ++ cursor.getD ""))
    | some start =>
        lokiPages backend ref (nsFromDatetime window.stop)
          (nsFromDatetime window.stop - start).toNat start

end Loki

/-! CloudWatch. -/

structure CloudWatchEvent where
  timestamp : Option ℤ
  message : Option String

structure CloudWatchPage where
  events : List CloudWatchEvent
  nextToken : Option String

/-- The most events of a page. -/
def cloudWatchPageSize : ℕ := 10000

structure CloudWatchBackend where
  /-- The answer for a window, a limit and a token, or why there is none. -/
  filterLogEvents : TimeWindow → ℕ → Option String → Except String CloudWatchPage
  /-- The date and time of an instant in milliseconds. -/
  datetimeFromMs : ℤ → Timestamp

section CloudWatch

variable (backend : CloudWatchBackend) (streamId : String) (window : TimeWindow)

def cloudWatchLine (event : CloudWatchEvent) : SourceLine where
  text := event.message.getD ""
  sourceRef := streamId
  receivedAt := event.timestamp.map backend.datetimeFromMs
  defaultService := none
  defaultEnvironment := none
  defaultHost := none

/-- The read from a token on, if so many rounds suffice for it. -/
def cloudWatchRead : ℕ → Option String → Option (Session SourceLine)
  | 0, _ => none
  | fuel + 1, nextToken =>
      match backend.filterLogEvents window cloudWatchPageSize (truthy nextToken) with
      | .error reason => some (.stopped (.unavailable reason))
      | .ok page =>
          let lines := page.events.map (cloudWatchLine backend streamId)
          let newToken := truthy page.nextToken
          if newToken = none ∨ newToken = nextToken then
            some (.behind lines none (.stopped .exhausted))
          else (cloudWatchRead fuel newToken).map (.behind lines newToken)

end CloudWatch

/-! Datadog. -/

/-- A page; what is no object is no event. -/
structure DatadogPage (β : Type) where
  data : List (Option β)
  after : Option String

structure DatadogBackend (β : Type) where
  apiKey : String
  appKey : String
  /-- The answer for a window, a limit and a cursor, or why there is none. -/
  searchLogs : TimeWindow → ℕ → Option String → Except String (DatadogPage β)
  /-- The line of an event. -/
  lineOf : β → SourceLine

structure DatadogRef where
  pageSize : ℤ
  maxRows : ℤ

def DatadogRef.pageLimit (ref : DatadogRef) : ℕ := (max 1 (min ref.pageSize 1000)).toNat

def DatadogRef.rowCap (ref : DatadogRef) : ℕ := (max 1 ref.maxRows).toNat

section Datadog

variable {β : Type} (backend : DatadogBackend β) (ref : DatadogRef) (window : TimeWindow)

/-- The read from a cursor on, after so many rows, if so many rounds suffice for it. -/
def datadogPages : ℕ → ℕ → Option String → Option (Session SourceLine)
  | 0, _, _ => none
  | fuel + 1, yielded, cursor =>
      if ref.rowCap ≤ yielded then some (.stopped .exhausted)
      else
        let remaining := ref.rowCap - yielded
        match backend.searchLogs window (min ref.pageLimit remaining) (truthy cursor) with
        | .error reason => some (.stopped (.unavailable reason))
        | .ok page =>
            if page.data = [] then some (.behind [] none (.stopped .exhausted))
            else
              let events := (page.data.filterMap id).take remaining
              let lines := events.map backend.lineOf
              let after := truthy page.after
              if after = none ∨ after = cursor then
                some (.behind lines none (.stopped .exhausted))
              else if ref.rowCap ≤ yielded + events.length then
                -- the next page is left to another read
                some (.behind lines after (.stopped .exhausted))
              else (datadogPages fuel (yielded + events.length) after).map (.behind lines after)

def datadogRead (fuel : ℕ) (cursor : Option String) : Option (Session SourceLine) :=
  if backend.apiKey = "" ∨ backend.appKey = "" then
    some (.stopped (.unavailable
      "datadog adapter requires DATADOG_API_KEY and DATADOG_APP_KEY"))
  else datadogPages backend ref window fuel 0 cursor

end Datadog

end Raglogs.Paging
