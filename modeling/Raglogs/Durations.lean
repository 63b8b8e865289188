import Raglogs.Doubles
import Raglogs.LogEntries
import Raglogs.Regex

/-!
Durations and windows as a user writes them. A duration is a decimal number with a
unit, taken as a float; a window is a duration back from now, or two instants, or one
instant up to now. Instants lie between the first and the last one of the calendar.
-/

namespace Raglogs.Durations

open Doubles LogEntries Regex Regex.Pattern Text

/-- Why a window cannot be resolved. -/
inductive WindowError
  | unparsable (duration : String)
  | tooLong (message : String)
  | outOfRange
  | noBounds
  | malformed
deriving DecidableEq

def WindowError.message (lowering : Lowering) : WindowError → String
  | .unparsable duration => "Cannot parse duration: " ++ lowering.repr duration
  | .tooLong message => message
  | .outOfRange => "date value out of range"
  | .noBounds => "Must provide either --since or --from/--to"
  | .malformed => "Invalid isoformat string"

/-- A number, white space, and a unit, over the whole text. -/
def durationPattern : Pattern :=
  .seq .start (.seq
    (.group "value" (.seq (plus digit) (opt (.seq (ofChar '.') (plus digit)))))
    (.seq (.star space) (.seq
      (.group "unit" (anyOf (["s", "sec", "m", "min", "h", "hr", "d", "day", "days", "w", "week",
        "weeks"].map lit)))
      .finish)))

/-- The number that decimal digits with at most one point write. -/
def decimalValue (s : String) : ℚ :=
  let whole := s.toList.takeWhile (fun c => c ≠ '.')
  let fraction := (s.toList.dropWhile (fun c => c ≠ '.')).drop 1
  let value : List Char → ℚ := fun cs =>
    cs.foldl (fun n c => 10 * n + ((digitValue c).getD 0 : ℕ)) 0
  value whole + value fraction / 10 ^ fraction.length

/-- The seconds of a unit, in lower case. -/
def unitSeconds : String → Option ℕ
  | "s" | "sec" => some 1
  | "m" | "min" => some 60
  | "h" | "hr" => some 3600
  | "d" | "day" | "days" => some 86400
  | "w" | "week" | "weeks" => some 604800
  | _ => none

/-- A timedelta holds less than this many microseconds. -/
def durationLimit : ℕ := 1000000000 * 86400 * 1000000

/-- The first instant of the calendar. -/
def firstInstant : Timestamp := -62135596800000000

/-- The microseconds of so many units: exact for the whole units, while the part of a
unit is multiplied in floats. -/
def timedeltaMicros (value : ℚ) (unitMicros : ℕ) : ℤ :=
  roundHalfEven (⌊value⌋ * unitMicros + roundDouble (unitMicros * (value - ⌊value⌋)))

/-- What is said of a value that makes no timedelta. -/
def tooLongMessage (value : ℚ) (micros : ℤ) : String :=
  let days := micros / 86400000000
  if 2 ^ 1024 ≤ value then "cannot convert float infinity to integer"
  else if 2 ^ 31 ≤ days then "Python int too large to convert to C int"
  else "days=" ++ toString days ++ "; must have magnitude <= 999999999"

/-- Parse a duration into microseconds. -/
def parseDuration (lowering : Lowering) (durationStr : String) : Except WindowError ℤ :=
  match durationPattern.matchStart (strip durationStr) with
  | none => .error (.unparsable durationStr)
  | some m =>
      let value := roundDouble (decimalValue ((m.named "value").getD ""))
      match unitSeconds (lowering.lower ((m.named "unit").getD "")) with
      | none => .error (.unparsable durationStr)
      | some seconds =>
          let micros := timedeltaMicros value (seconds * 1000000)
          if durationLimit ≤ micros then .error (.tooLong (tooLongMessage value micros))
          else .ok micros

theorem parseDuration_hour : parseDuration asciiLowering "1h" = .ok 3600000000 := by
  decide +kernel

structure TimeWindow where
  start : Timestamp
  stop : Timestamp
deriving DecidableEq

/-- The offset from UTC that a time is written with. -/
abbrev Zone := ℤ

/-- The zones that the bounds of a window are written in. -/
structure Zones where
  start : Zone
  stop : Zone
deriving DecidableEq

/-- The window of a request, at the instant `now`. -/
def resolveWindow (lowering : Lowering) (now : Timestamp) (since : Option String)
    (fromTime toTime : Option Timestamp) : Except WindowError TimeWindow :=
  match truthy since with
  | some since => do
      let delta ← parseDuration lowering since
      if now - delta < firstInstant then .error .outOfRange
      else return ⟨now - delta, now⟩
  | none =>
      match fromTime, toTime with
      | some fromTime, some toTime => .ok ⟨fromTime, toTime⟩
      | some fromTime, none => .ok ⟨fromTime, now⟩
      | none, _ => .error .noBounds

end Raglogs.Durations
