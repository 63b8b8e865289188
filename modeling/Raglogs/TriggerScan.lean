import Mathlib.Data.Prod.Lex
import Raglogs.BoundedScans
import Raglogs.Durations
import Raglogs.Parsing
import Raglogs.Triggers

/-!
The search for triggers of an incident. A query takes the rows whose text has the shape
of a trigger, those of the causal patterns up to a bound and those of the reactive
patterns up to the end of the window; the messages of the rows are checked again, the
repeated ones are dropped, and three are kept.
-/

namespace Raglogs.TriggerScan

open BoundedScans Collections Durations LogEntries Parsing Text Triggers

structure TriggerCandidate where
  message : String
  timestamp : Option Timestamp
  service : Option String

/-- A search: its window and lookback, and the rows that it is about. The lookback is in
minutes, and ends in the calendar. -/
structure Search where
  windowStart : Timestamp
  windowEnd : Timestamp
  lookbackMinutes : ℤ
  ingestionJobId : Option ℕ
  scope : String
  start_valid : firstInstant ≤ windowStart - lookbackMinutes * 60000000

def triggerRowCap : ℕ := 5000

def Search.searchStart (search : Search) : Timestamp :=
  search.windowStart - search.lookbackMinutes * 60000000

/-- Where the search for causal patterns ends. -/
def Search.causalUpper (search : Search) (searchEnd : Option Timestamp) : Timestamp :=
  searchEnd.getD search.windowEnd

def matchesAny (patterns : List Regex.Pattern) (text : String) : Bool :=
  patterns.any fun pattern => pattern.isMatch text

/-- The text that the query looks at: the raw one of a row without a normalized one. -/
def searchedText (e : LogEntry) : Option String := orElse e.normalizedMessage e.rawMessage

/-- Whether a row is of the job of the search, if it names one. -/
def Search.ofJob (search : Search) (e : LogEntry) : Bool :=
  match search.ingestionJobId with
  | some job => e.ingestionJobId == some job
  | none => true

/-- The filter of the query; a null column fails every comparison. -/
def Search.accepts (search : Search) (searchEnd : Option Timestamp) (e : LogEntry) : Bool :=
  (match e.timestamp with
    | some t => search.searchStart ≤ t &&
        (match searchedText e with
          | some text =>
              (t ≤ search.causalUpper searchEnd && matchesAny causalTriggerPatterns text) ||
              (t ≤ search.windowEnd && matchesAny reactiveTriggerPatterns text)
          | none => false)
    | none => false) &&
  e.scope == search.scope && search.ofJob e

/-- The first instant stands for a timestamp that is missing. -/
def instantOf (timestamp : Option Timestamp) : Timestamp := timestamp.getD firstInstant

def rowOrder (e : LogEntry) : Lex (Timestamp × EntryId) := toLex (instantOf e.timestamp, e.id)

/-- The rows that the query gives. -/
def Search.rows (search : Search) (store : LogStore) (searchEnd : Option Timestamp) :
    List LogEntry :=
  (sortOn rowOrder (store.entries.filter (search.accepts searchEnd))).take triggerRowCap

/-- The message of a row: the normalized one, else the one that a raw object names, else
the raw text. There is none if the object names something that is no text. -/
def messageOf (loads : String → Except String Json) (e : LogEntry) : Option String :=
  match truthy e.normalizedMessage, truthy e.rawMessage with
  | some message, _ => some message
  | none, none => some ""
  | none, some raw =>
      match loads raw with
      | .ok (.obj fields) =>
          let message := getKey fields "message"
          if isTruthy message then
            match message with
            | .str text => some text
            | _ => none
          else some raw
      | _ => some raw

/-- A row with its message. -/
abbrev Reading := LogEntry × String

def readRow (loads : String → Except String Json) (e : LogEntry) : Option Reading :=
  (messageOf loads e).map fun message => (e, message)

/-- What is shown of a row. -/
def candidateOf (r : Reading) : TriggerCandidate :=
  ⟨take 500 r.2, r.1.timestamp, r.1.service⟩

/-- Two candidates that begin alike are one. -/
def dedupKey (r : Reading) : String := strip (take 100 (candidateOf r).message)

/-- The readings that the search shows. A message that is no text fails the search. -/
def Search.shown (search : Search) (loads : String → Except String Json) (store : LogStore)
    (searchEnd : Option Timestamp) : Option (List Reading) := do
  let readings ← (search.rows store searchEnd).mapM (readRow loads)
  let candidates := readings.filter fun r => isTriggerMessage r.2
  return (firsts dedupKey [] (sortOn (fun r => instantOf r.1.timestamp) candidates)).take 3

/-- Likely trigger events in a window and slightly before it. -/
def findTriggerCandidates (loads : String → Except String Json) (store : LogStore)
    (search : Search) (searchEnd : Option Timestamp) : Option (List TriggerCandidate) :=
  (search.shown loads store searchEnd).map fun shown => shown.map candidateOf

end Raglogs.TriggerScan
