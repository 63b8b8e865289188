import Mathlib.Algebra.Order.Ring.Rat
import Raglogs.LogEntries
import Raglogs.Normalization

/-!
Instants in log lines. What the language and its libraries decide is a parameter:
the character table, the JSON decoder, the readers of dates, and the digest. A
reader that fails raises an exception; the handlers name the kinds they catch.
-/

namespace Raglogs.Timestamps

open LogEntries Normalization Regex Regex.Pattern Text

/-- The kinds of exceptions that the handlers tell apart. -/
inductive Raised
  | value
  | overflow
  | os
  | other
deriving DecidableEq

/-- A date and time as written, with its offset from UTC when one is written. -/
structure DateTime where
  wall : Timestamp
  offset : Option ℤ

/-- The instant; without an offset the date and time are in UTC. -/
def DateTime.instant (d : DateTime) : Timestamp := d.wall - d.offset.getD 0

structure Runtime where
  /-- A letter, digit or underscore of the character table. -/
  isWord : Char → Bool
  lowering : Lowering
  /-- Decode a JSON text, or give the reason why it is none. -/
  loads : String → Except String Json
  /-- The text of a float, an array or an object. -/
  repr : Json → String
  fromIsoformat : String → Except Raised DateTime
  dateutilParse : String → Except Raised DateTime
  /-- The instant so many seconds after the epoch. -/
  fromTimestamp : ℚ → Except Raised Timestamp
  /-- The number that decimal digits write, unless it is too large for one. -/
  toFloat : String → Option ℚ
  /-- A thousandth of a number, rounded to one. -/
  thousandth : ℚ → ℚ
  sha256 : String → String
  /-- The digest is sixty-four hexadecimal digits. -/
  sha256_digits : ∀ text, (sha256 text).length = 64 ∧
    (sha256 text).toList.all (fun c => asciiDigit c || hexLetter c) = true

section Readers

variable (rt : Runtime)

def isoPattern : Pattern := concat [calendarDate, ofChar 'T', clock, fraction]

def accessLogPattern : Pattern :=
  concat [exactly 2 digit, ofChar '/', exactly 3 (.char rt.isWord), ofChar '/', exactly 4 digit,
    ofChar ':', clock, ofChar ' ', oneOf ['+', '-'], exactly 4 digit]

/-- Ten digits of a Unix timestamp of these decades. -/
def epochDigits : Pattern :=
  concat [ofChar '1', .char (inInterval '5' '9'), exactly 8 digit]

def timestampPatterns : List Pattern := [
  .seq isoPattern looseOffset,
  isoPattern,
  concat [calendarDate, ofChar ' ', clock, fraction],
  accessLogPattern rt,
  concat [.boundary rt.isWord, epochDigits, fraction, .boundary rt.isWord]]

/-- The instant that the text of a match writes. -/
def readTimestamp (raw : String) : Except Raised Timestamp :=
  if (epochDigits.matchStart raw).isSome then
    match rt.toFloat raw with
    | some seconds => rt.fromTimestamp seconds
    | none => .error .overflow
  else
    match rt.dateutilParse raw with
    | .ok d => .ok d.instant
    | .error e => .error e

/-- The first pattern whose match can be read decides. -/
def extractTimestampBy (text : String) : List Pattern → Except Raised (Option Timestamp)
  | [] => .ok none
  | pattern :: rest =>
      match pattern.search text with
      | none => extractTimestampBy text rest
      | some (place, m) =>
          match readTimestamp rt (place.between m.cursor) with
          | .ok t => .ok (some t)
          | .error .value | .error .overflow => extractTimestampBy text rest
          | .error e => .error e

/-- Try to extract a timestamp from arbitrary text. -/
def extractTimestamp (text : String) : Except Raised (Option Timestamp) :=
  extractTimestampBy rt text (timestampPatterns rt)

/-- Seconds since the epoch, or milliseconds when there are too many of them. -/
def parseTimestampNumber (value : ℚ) : Except Raised (Option Timestamp) :=
  match rt.fromTimestamp (if 10 ^ 12 < value then rt.thousandth value else value) with
  | .ok t => .ok (some t)
  | .error .other => .error .other
  | .error _ => .ok none

/-- Rewrite a final `Z` to an offset. -/
def rewriteIsoZ (value : String) : String :=
  if value.toList.getLast? = some 'Z' then String.ofList value.toList.dropLast ++ "+00:00"
  else value

def decimalNumber : Pattern :=
  concat [opt (ofChar '-'), plus digit, opt (.seq (ofChar '.') (plus digit))]

/-- A timestamp that no reader of dates takes. -/
def parseTimestampRest (value : String) : Except Raised (Option Timestamp) :=
  if decimalNumber.matchesWhole (strip value) then
    match rt.toFloat (strip value) with
    | some seconds => parseTimestampNumber rt seconds
    | none => .ok none
  else extractTimestamp rt value

def parseTimestampText (value : String) : Except Raised (Option Timestamp) :=
  match rt.fromIsoformat (rewriteIsoZ value) with
  | .ok d => .ok (some d.instant)
  | .error .value =>
      match rt.dateutilParse value with
      | .ok d => .ok (some d.instant)
      | .error .value | .error .overflow => parseTimestampRest rt value
      | .error e => .error e
  | .error e => .error e

/-- Parse a timestamp from a known field value. -/
def parseTimestampField : Json → Except Raised (Option Timestamp)
  | .bool b => parseTimestampNumber rt (if b then 1 else 0)
  | .int n => parseTimestampNumber rt n
  | .float x => parseTimestampNumber rt x
  | .str s => parseTimestampText rt s
  | _ => .ok none

end Readers

end Raglogs.Timestamps
