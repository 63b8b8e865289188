import Raglogs.JsonText
import Raglogs.Upserts

/-!
Primary keys of telemetry rows. The key of a row is the digest of a text that joins
the scope and the identifying fields of the row, each as the language prints it, and
an insert does nothing when the key is there already.
-/

namespace Raglogs.TelemetryKeys

open Encodings JsonText LogEntries Upserts

def isLeap (year : ℕ) : Bool := year % 4 = 0 && (year % 100 ≠ 0 || year % 400 = 0)

/-- The days of a year before a month; the thirteenth would be the next January. -/
def daysBeforeMonth (year month : ℕ) : ℕ :=
  [0, 31, 59, 90, 120, 151, 181, 212, 243, 273, 304, 334, 365].getD (month - 1) 0 +
    if 2 < month && isLeap year then 1 else 0

def daysInMonth (year month : ℕ) : ℕ :=
  daysBeforeMonth year (month + 1) - daysBeforeMonth year month

def daysBeforeYear (year : ℕ) : ℕ :=
  (year - 1) * 365 + (year - 1) / 4 - (year - 1) / 100 + (year - 1) / 400

/-- A date and time with its offset from UTC in microseconds, if it has one. -/
structure Datetime where
  year : ℕ
  month : ℕ
  day : ℕ
  hour : ℕ
  minute : ℕ
  second : ℕ
  microsecond : ℕ
  offset : Option ℤ
  date_bounds : 1 ≤ year ∧ year ≤ 9999 ∧ 1 ≤ month ∧ month ≤ 12 ∧ 1 ≤ day ∧
    day ≤ daysInMonth year month
  clock_bounds : hour < 24 ∧ minute < 60 ∧ second < 60 ∧ microsecond < 1000000
  offset_bounds : ∀ o ∈ offset, o.natAbs < 86400000000

/-- The microseconds of the date and time as written. -/
def Datetime.wall (d : Datetime) : ℕ :=
  ((((daysBeforeYear d.year + daysBeforeMonth d.year d.month + d.day) * 24 + d.hour) * 60 +
    d.minute) * 60 + d.second) * 1000000 + d.microsecond

/-- The point in time. Without an offset it is comparable only to others without one. -/
def Datetime.instant (d : Datetime) : Bool × ℤ := (d.offset.isSome, d.wall - d.offset.getD 0)

def fractionText (microsecond : ℕ) : List Char :=
  if microsecond = 0 then [] else '.' :: padded 10 6 microsecond

/-- The seconds of an offset, if there are any. -/
def offsetSeconds (a : ℕ) : List Char :=
  if a % 60000000 = 0 then []
  else ':' :: (padded 10 2 (a / 1000000 % 60) ++ fractionText (a % 1000000))

def offsetText : Option ℤ → List Char
  | none => []
  | some o =>
      (if o < 0 then '-' else '+') :: (padded 10 2 (o.natAbs / 3600000000) ++
        ':' :: (padded 10 2 (o.natAbs / 60000000 % 60) ++ offsetSeconds o.natAbs))

/-- The date and time as it is printed. -/
def Datetime.chars (d : Datetime) : List Char :=
  padded 10 4 d.year ++ '-' :: (padded 10 2 d.month ++ '-' :: (padded 10 2 d.day ++
    ' ' :: (padded 10 2 d.hour ++ ':' :: (padded 10 2 d.minute ++ ':' :: (padded 10 2 d.second ++
      (fractionText d.microsecond ++ offsetText d.offset))))))

def Datetime.text (d : Datetime) : String := String.ofList d.chars

structure ParsedSpan where
  traceId : Option String
  spanId : Option String
  parentSpanId : Option String
  service : Option String
  operation : Option String
  startTime : Option Datetime
  durationMs : Option ℚ
  statusCode : Option String
  attributes : Option (List (String × Json))

structure ParsedMetricSample where
  service : Option String
  metric : String
  value : Option ℚ
  ts : Option Datetime
  attributes : Option (List (String × Json))
  metricType : Option String

/-- A component as it is printed. -/
def shown (s : Option String) : String := s.getD "None"

/-- The text that the key of a span is the digest of. -/
def spanKey (scope : String) (s : ParsedSpan) : String :=
  scope ++ "|" ++ shown s.traceId ++ "|" ++ shown s.spanId ++ "|" ++
    shown (s.startTime.map Datetime.text) ++ "|" ++ shown s.service

section Keys

variable (ft : FloatText)

def metricKey (scope : String) (m : ParsedMetricSample) : String :=
  scope ++ "|" ++ shown m.service ++ "|" ++ m.metric ++ "|" ++ shown (m.ts.map Datetime.text) ++
    match m.attributes with
    | none => ""
    | some attributes => "|" ++ dumps ft (.obj attributes)

end Keys

/-- A row of a telemetry table. -/
structure Row (ι α : Type) where
  id : ι
  ingestionJobId : Option ℕ
  scope : String
  record : α

/-- A record with the scope it is stored under. -/
abbrev Scoped (α : Type) : Type := String × α

def Row.scoped {ι α : Type} (row : Row ι α) : Scoped α := (row.scope, row.record)

def defaultLogScope : String := "default"

def batchSize : ℕ := 1000

/-- Slices of a length, one after another. -/
def chunks {α : Type} (n : ℕ) (rows : List α) : List (List α) :=
  (List.range ((rows.length + n - 1) / n)).map fun i => (rows.drop (i * n)).take n

section Persist

variable {ι α : Type} [DecidableEq ι] (uuid5 : String → ι) (keyText : String → α → String)

/-- One call: its scope, its job, and its records. -/
structure Call (α : Type) where
  scope : String
  ingestionJobId : Option ℕ
  records : List α

def Call.scopeOrDefault (call : Call α) : String :=
  if call.scope = "" then defaultLogScope else call.scope

/-- The records of some calls, in order. -/
def ingested (calls : List (Call α)) : List (Scoped α) :=
  calls.flatMap fun call => call.records.map fun record => (call.scopeOrDefault, record)

def Call.rows (call : Call α) : List (Row ι α) :=
  call.records.map fun record =>
    ⟨uuid5 (keyText call.scopeOrDefault record), call.ingestionJobId, call.scopeOrDefault, record⟩

/-- The rows in batches, each by an insert that does nothing on a conflict. -/
def persist (table : List (Row ι α)) (call : Call α) : List (Row ι α) × ℕ :=
  ((chunks batchSize (call.rows uuid5 keyText)).foldl (upsertAll fun row => some row.id) table,
    (call.rows uuid5 keyText).length)

/-- The table after these calls. -/
def persistAll (calls : List (Call α)) : List (Row ι α) :=
  calls.foldl (fun table call => (persist uuid5 keyText table call).1) []

end Persist

def persistSpans {ι : Type} [DecidableEq ι] (uuid5 : String → ι) :
    List (Row ι ParsedSpan) → Call ParsedSpan → List (Row ι ParsedSpan) × ℕ :=
  persist uuid5 spanKey

def persistMetricSamples {ι : Type} [DecidableEq ι] (ft : FloatText) (uuid5 : String → ι) :
    List (Row ι ParsedMetricSample) → Call ParsedMetricSample →
      List (Row ι ParsedMetricSample) × ℕ :=
  persist uuid5 (metricKey ft)

end Raglogs.TelemetryKeys
