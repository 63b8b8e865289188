import Raglogs.LogEntries
import Raglogs.Text

/-!
The body of a push request. The body is split where a str splits into lines, blank
lines are left out, and each other line is decoded: a JSON string is the line it
holds, an object is written again with a message, and anything else stays text. The
JSON library is a parameter.
-/

namespace Raglogs.Push

open LogEntries Text

structure Codec where
  /-- The value of a text, if it is JSON. -/
  loads : String → Option Json
  dumps : List (String × Json) → String

/-- The characters that end a line of a str. -/
def isLineBreak (a : Char) : Bool :=
  ['\n', '\x0b', '\x0c', '\r', '\x1c', '\x1d', '\x1e', '\u0085', '\u2028', '\u2029'].contains a

/-- The lines of a text whose first line has begun. -/
def linesFrom : List Char → List Char → List (List Char)
  | line, [] => if line.isEmpty then [] else [line]
  | line, '\r' :: '\n' :: rest => line :: linesFrom [] rest
  | line, a :: rest =>
      if isLineBreak a then line :: linesFrom [] rest
      else linesFrom (line ++ [a]) rest

def splitlines (s : String) : List String := (linesFrom [] s.toList).map String.ofList

structure NdjsonParseError where
  message : String

def isNull : Json → Bool
  | .null => true
  | _ => false

/-- The object with a message taken from the first of the other keys that has a value. -/
def withMessage (obj : List (String × Json)) : List (String × Json) :=
  if (obj.lookup "message").isSome then obj
  else
    match ["raw", "text", "msg"].findSome? fun key => (obj.lookup key).filter (!isNull ·) with
    | none => obj
    | some value => obj ++ [("message", value)]

def objectToJsonLine (codec : Codec) (obj : List (String × Json)) : String :=
  codec.dumps (withMessage obj)

def coerceNdjsonLine (codec : Codec) (line : String) : String :=
  match codec.loads (strip line) with
  | none => strip line
  | some (.str s) => s
  | some (.obj fields) => objectToJsonLine codec fields
  | some _ => strip line

/-- The lines of a text that are not blank. -/
def physicalLines (body : String) : List String :=
  (splitlines body).filter fun line => strip line ≠ ""

def parseNdjsonPayload (codec : Codec) (body : String) (maxLines : ℤ) :
    Except NdjsonParseError (List String) :=
  if maxLines < 1 then .error ⟨"max_lines must be >= 1"⟩
  else if (physicalLines body).isEmpty then .error ⟨"NDJSON body is empty"⟩
  else if maxLines < (physicalLines body).length then
    .error ⟨"payload exceeds INGEST_PUSH_MAX_LINES (" ++ toString maxLines ++ ")"⟩
  else .ok ((physicalLines body).map (coerceNdjsonLine codec))

end Raglogs.Push
