import Mathlib.Algebra.Order.Ring.Rat
import Mathlib.Data.String.Basic
import Raglogs.Text

/-!
The table of log entries. A row has an identity that no other row has; the other
columns may be null or empty in any combination. A filter of a query is a test of
the row, and a null column fails every comparison.
-/

namespace Raglogs.LogEntries

/-- An instant, in microseconds. -/
abbrev Timestamp := ℤ

/-- A row identifier. -/
abbrev EntryId := ℕ

inductive Json
  | null
  | bool (b : Bool)
  | int (n : ℤ)
  | float (x : ℚ)
  | str (s : String)
  | arr (items : List Json)
  | obj (fields : List (String × Json))

structure LogEntry where
  id : EntryId
  ingestionJobId : Option ℕ
  timestamp : Option Timestamp
  service : Option String
  environment : Option String
  level : Option String
  traceId : Option String
  requestId : Option String
  host : Option String
  rawMessage : Option String
  normalizedMessage : Option String
  fingerprint : Option String
  parserType : Option String
  extraJson : Option Json
  sourceAdapter : String
  sourceRef : Option String
  originalLineHash : Option String
  scope : String

/-- The stored rows; the primary key keeps the identifiers distinct. -/
structure LogStore where
  entries : List LogEntry
  ids_nodup : (entries.map LogEntry.id).Nodup

/-- The filters of an analysis: an inclusive window, a scope, and optional columns. -/
structure WindowFilter where
  windowStart : Timestamp
  windowEnd : Timestamp
  scope : String
  service : Option String
  environment : Option String
  ingestionJobId : Option ℕ

/-- The window, scope and column predicates shared by every clustering query. -/
def WindowFilter.accepts (f : WindowFilter) (e : LogEntry) : Bool :=
  (match e.timestamp with
    | some t => f.windowStart ≤ t && t ≤ f.windowEnd
    | none => false) &&
  e.fingerprint.isSome &&
  e.scope == f.scope &&
  (match Text.truthy f.service with
    | some service => e.service == some service
    | none => true) &&
  (match Text.truthy f.environment with
    | some environment => e.environment == some environment
    | none => true) &&
  (match f.ingestionJobId with
    | some job => e.ingestionJobId == some job
    | none => true)

def LogStore.baseWindowQuery (store : LogStore) (f : WindowFilter) : List LogEntry :=
  store.entries.filter f.accepts

end Raglogs.LogEntries
