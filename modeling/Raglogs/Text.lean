import Mathlib.Data.String.Basic
import Raglogs.Regex

/-!
Strings as the language has them: the white space that a split or a pattern
skips, stripping, truth of an optional string, and the letters that a
case-insensitive pattern accepts, with the patterns made of them. What depends on
the whole character table is a parameter.
-/

namespace Raglogs.Text

/-- White space of a str: the separators of the character table and the controls. -/
def isSpace (c : Char) : Bool :=
  let n := c.toNat
  (9 ≤ n && n ≤ 13) || (28 ≤ n && n ≤ 32) || n == 0x85 || n == 0xa0 || n == 0x1680 ||
    (0x2000 ≤ n && n ≤ 0x200a) || n == 0x2028 || n == 0x2029 || n == 0x202f ||
    n == 0x205f || n == 0x3000

def strip (s : String) : String :=
  String.ofList (((s.toList.dropWhile isSpace).reverse.dropWhile isSpace).reverse)

/-- Strip some characters from both ends. -/
def stripChars (chars : List Char) (s : String) : String :=
  String.ofList
    (((s.toList.dropWhile chars.contains).reverse.dropWhile chars.contains).reverse)

theorem length_strip_le (s : String) : (strip s).length ≤ s.length := by
  have hleft := (s.toList.dropWhile_suffix isSpace).length_le
  have hright := ((s.toList.dropWhile isSpace).reverse.dropWhile_suffix isSpace).length_le
  rw [List.length_reverse] at hright
  rw [strip, String.length_ofList, List.length_reverse, ← String.length_toList]
  omega

/-- The first characters of a string. -/
def take (n : ℕ) (s : String) : String := String.ofList (s.toList.take n)

/-- No character of a string is NUL. -/
def nulFree (s : String) : Bool := s.toList.all (fun c => c != '\x00')

/-- The zeros of the decimal digit rows of the character table. -/
def decimalZeros : List ℕ :=
  [0x30, 0x660, 0x6f0, 0x7c0, 0x966, 0x9e6, 0xa66, 0xae6, 0xb66, 0xbe6, 0xc66, 0xce6, 0xd66,
    0xde6, 0xe50, 0xed0, 0xf20, 0x1040, 0x1090, 0x17e0, 0x1810, 0x1946, 0x19d0, 0x1a80, 0x1a90,
    0x1b50, 0x1bb0, 0x1c40, 0x1c50, 0xa620, 0xa8d0, 0xa900, 0xa9d0, 0xa9f0, 0xaa50, 0xabf0,
    0xff10, 0x104a0, 0x10d30, 0x11066, 0x110f0, 0x11136, 0x111d0, 0x112f0, 0x11450, 0x114d0,
    0x11650, 0x116c0, 0x11730, 0x118e0, 0x11950, 0x11c50, 0x11d50, 0x11da0, 0x16a60, 0x16ac0,
    0x16b50, 0x1d7ce, 0x1d7d8, 0x1d7e2, 0x1d7ec, 0x1d7f6, 0x1e140, 0x1e2f0, 0x1e950, 0x1fbf0]

/-- The value of a decimal digit of any script. -/
def digitValue (c : Char) : Option ℕ :=
  (decimalZeros.find? (fun base => base ≤ c.toNat && c.toNat < base + 10)).map
    (fun base => c.toNat - base)

def isDigit (c : Char) : Bool := (digitValue c).isSome

/-- An optional string that a truth test accepts. -/
def truthy (s : Option String) : Option String := s.filter (fun s => s ≠ "")

@[simp]
theorem truthy_none : truthy none = none := rfl

theorem truthy_eq_some {s : Option String} {t : String} :
    truthy s = some t ↔ s = some t ∧ t ≠ "" := by
  simp [truthy, Option.filter_eq_some_iff]

/-- The characters that match an ASCII letter or another character when case is ignored. -/
def ignoreCase (a : Char) (b : Char) : Bool :=
  b.toLower == a.toLower ||
    match a.toLower with
    | 'i' => b.toNat == 0x130 || b.toNat == 0x131
    | 's' => b.toNat == 0x17f
    | 'k' => b.toNat == 0x212a
    | _ => false

/-! Patterns of characters. -/

open Regex Regex.Pattern

/-- A literal of a case-insensitive pattern. -/
def lit (s : String) : Pattern := word (fun a => .char (ignoreCase a)) s

/-- A literal that minds the case. -/
def exact (s : String) : Pattern := word ofChar s

def space : Pattern := .char isSpace

def spaces : Pattern := plus space

def nonSpaces : Pattern := plus (.char (fun c => !isSpace c))

def digit : Pattern := .char isDigit

/-- What follows the Unicode tables: lower-casing, which leaves the empty string empty, and
how a text is quoted, which shows the characters that print. -/
structure Lowering where
  lower : String → String
  lower_empty : lower "" = ""
  repr : String → String

/-- A character of a quoted ASCII text. -/
def asciiEscape (quote c : Char) : List Char :=
  if c = quote ∨ c = '\\' then ['\\', c]
  else if c = '\n' then ['\\', 'n']
  else if c = '\t' then ['\\', 't']
  else if c = '\r' then ['\\', 'r']
  else if c < ' ' ∨ c.toNat = 127 then
    ['\\', 'x', Nat.digitChar (c.toNat / 16), Nat.digitChar (c.toNat % 16)]
  else [c]

/-- ASCII text in apostrophes, or in quotation marks where only these are not in it. -/
def asciiRepr (s : String) : String :=
  let apostrophe := Char.ofNat 39
  let quotation := Char.ofNat 34
  let quote := if apostrophe ∈ s.toList ∧ quotation ∉ s.toList then quotation else apostrophe
  String.ofList ([quote] ++ s.toList.flatMap (asciiEscape quote) ++ [quote])

/-- Lower-casing and quoting of ASCII text. -/
def asciiLowering : Lowering where
  lower s := String.ofList (s.toList.map Char.toLower)
  lower_empty := rfl
  repr := asciiRepr

end Raglogs.Text
