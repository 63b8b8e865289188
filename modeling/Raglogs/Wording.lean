import Mathlib.Data.List.Infix
import Raglogs.Text

/-!
Short texts for a reader: a text is cut off behind a whole word, a keyword is looked for
anywhere in a text, and a number of things is written with its noun.
-/

namespace Raglogs.Wording

open Text

/-- The place of the last space. -/
def lastSpace (l : List Char) : Option ℕ :=
  ((l.zipIdx.filter fun p => p.1 == ' ').getLast?).map Prod.snd

/-- Cut off at a limit, behind a whole word if that keeps more than half. -/
def cutAtWord (l : List Char) (maxLen : ℕ) : List Char :=
  let truncated := l.take maxLen
  match lastSpace truncated with
  | some i => if maxLen / 2 < i then truncated.take i else truncated
  | none => truncated

/-- Truncate at a word boundary. -/
def trunc (text : String) (maxLen : ℕ) : String :=
  if text.length ≤ maxLen then text else String.ofList (cutAtWord text.toList maxLen ++ ['…'])

/-- Whether a keyword occurs in a text. -/
def occursIn (text keyword : String) : Bool := decide (keyword.toList <:+: text.toList)

/-- One of some keywords, once the text is in lower case. -/
def mentions (lowering : Lowering) (keywords : List String) (text : String) : Bool :=
  keywords.any (occursIn (lowering.lower text))

def events (n : ℕ) : String := if n = 1 then "event" else "events"

end Raglogs.Wording
