import Raglogs.Regex
import Raglogs.Text

/-!
The normal form of a message. Rules replace what varies between two messages of one
kind by placeholders, in order, more specific ones first. The fingerprint is the
start of the digest of the normal form.
-/

namespace Raglogs.Normalization

open Regex Regex.Pattern Text

/-- A pattern and what stands in place of its match. -/
structure Rule where
  pattern : Pattern
  replacement : Match → String

def inInterval (low high c : Char) : Bool := low ≤ c && c ≤ high

def asciiDigit (c : Char) : Bool := inInterval '0' '9' c

def asciiLetter (c : Char) : Bool := inInterval 'a' 'z' c || inInterval 'A' 'Z' c

def hexLetter (c : Char) : Bool := inInterval 'a' 'f' c || inInterval 'A' 'F' c

def hex : Pattern := .char (fun c => asciiDigit c || hexLetter c)

/-- An ASCII letter or digit, or one of some other characters. -/
def alphanumericOr (others : List Char) : Pattern :=
  .char (fun c => asciiLetter c || asciiDigit c || others.contains c)

def token : Pattern := alphanumericOr ['_', '-']

/-- A rule with a fixed text in place of the match. -/
def Rule.fixed (pattern : Pattern) (text : String) : Rule := ⟨pattern, fun _ => text⟩

/-- A rule that keeps a group of the match and puts a text behind it. -/
def Rule.keep (pattern : Pattern) (text : String) : Rule :=
  ⟨pattern, fun m => (m.named "1").getD "" ++ text⟩

/-- What the clock of an instant looks like. -/
def clock : Pattern :=
  concat [exactly 2 digit, ofChar ':', exactly 2 digit, ofChar ':', exactly 2 digit]

def calendarDate : Pattern :=
  concat [exactly 4 digit, ofChar '-', exactly 2 digit, ofChar '-', exactly 2 digit]

def fraction : Pattern := opt (.seq (ofChar '.') (plus digit))

/-- An offset from UTC; its colon may be left out. -/
def looseOffset : Pattern :=
  .alt (ofChar 'Z')
    (concat [oneOf ['+', '-'], exactly 2 digit, opt (ofChar ':'), exactly 2 digit])

section Rules

variable (isWord : Char → Bool)

def uuidRule : Rule :=
  .fixed (concat [.boundary isWord, exactly 8 hex, ofChar '-', exactly 4 hex, ofChar '-',
    exactly 4 hex, ofChar '-', exactly 4 hex, ofChar '-', exactly 12 hex, .boundary isWord])
    "<uuid>"

def jwtRule : Rule :=
  .fixed (concat [exact "eyJ", atLeast 20 token, ofChar '.', atLeast 20 token, ofChar '.',
    atLeast 10 token]) "<jwt>"

/-- Hexadecimal digits with a letter among them. -/
def hexRule : Rule :=
  .fixed (concat [.boundary isWord, .ahead (.seq (.star hex) (.char hexLetter)), atLeast 8 hex,
    .boundary isWord]) "<hex>"

def tokenRule : Rule :=
  .fixed (concat [.boundary isWord, atLeast 32 token, .boundary isWord]) "<token>"

def ipRule : Rule :=
  .fixed (concat [.boundary isWord, exactly 3 (.seq (inRange 1 3 digit) (ofChar '.')),
    inRange 1 3 digit, opt (.seq (ofChar ':') (plus digit)), .boundary isWord]) "<ip>"

def ipv6Rule : Rule :=
  .fixed (concat [.boundary isWord, inRange 3 7 (.seq (inRange 1 4 hex) (ofChar ':')),
    inRange 1 4 hex, .boundary isWord]) "<ipv6>"

def emailRule : Rule :=
  .fixed (concat [.boundary isWord, plus (alphanumericOr ['.', '_', '%', '+', '-']), ofChar '@',
    plus (alphanumericOr ['.', '-']), ofChar '.', atLeast 2 (.char asciiLetter),
    .boundary isWord]) "<email>"

def urlRule : Rule :=
  .keep (concat [
    .group "1" (concat [exact "http", opt (ofChar 's'), exact "://",
      plus (.char (fun c => !isSpace c && c != '?'))]),
    ofChar '?', .star (.char (fun c => !isSpace c))]) "?<params>"

def correlationRule : Rule :=
  .keep (concat [.boundary isWord,
    .group "1" (anyOf (["request_id", "req_id", "trace_id", "span_id", "correlation_id"].map
      exact)), ofChar '=', nonSpaces]) "=<*>"

def numericIdRule : Rule :=
  .keep (concat [.boundary isWord,
    .group "1" (anyOf (["user", "account", "order", "transaction", "session", "job", "task",
      "worker", "tenant", "customer", "invoice"].map lit)),
    spaces, opt (.seq (lit "id") spaces), opt (ofChar '#'), .group "2" (plus digit),
    .boundary isWord]) " <id>"

def durationRule : Rule :=
  .fixed (concat [.boundary isWord, plus digit, fraction, .star space,
    anyOf [exact "ms", exact "s", exact "sec", .seq (exact "second") (opt (ofChar 's')),
      .seq (exact "minute") (opt (ofChar 's')), exact "min",
      .seq (exact "hour") (opt (ofChar 's')), exact "hr"], .boundary isWord]) "<duration>"

def portRule : Rule :=
  .fixed (concat [ofChar ':', .group "1" (inRange 4 5 digit), .boundary isWord]) ":<port>"

def numberRule : Rule :=
  .fixed (concat [.boundary isWord, atLeast 5 digit, .boundary isWord]) "<num>"

def pathRule : Rule :=
  .fixed (concat [ofChar '/',
    atLeast 3 (.seq (plus (alphanumericOr ['_', '-', '.'])) (ofChar '/')),
    .star (alphanumericOr ['_', '-', '.'])]) "<path>"

def timestampRule : Rule :=
  .fixed (concat [calendarDate, oneOf ['T', ' '], clock, fraction, opt looseOffset])
    "<timestamp>"

def normalizationRules : List Rule := [
  uuidRule isWord,
  jwtRule,
  hexRule isWord,
  tokenRule isWord,
  ipRule isWord,
  ipv6Rule isWord,
  emailRule isWord,
  urlRule,
  correlationRule isWord,
  numericIdRule isWord,
  durationRule isWord,
  portRule isWord,
  numberRule isWord,
  pathRule,
  timestampRule]

/-- The normal form of a message, with runs of white space collapsed. -/
def normalizeMessage (message : String) : String :=
  if message = "" then ""
  else
    let result := (normalizationRules isWord).foldl
      (fun result rule => rule.pattern.replaceAll rule.replacement result) message
    strip (spaces.replaceAll (fun _ => " ") result)

end Rules

/-- The first sixteen digits of the digest of a normal form. -/
def computeFingerprint (sha256 : String → String) (normalizedMessage : String) : String :=
  if normalizedMessage = "" then "empty"
  else take 16 (sha256 normalizedMessage)

/-- The normal form of a message and its fingerprint. -/
def fingerprintMessage (isWord : Char → Bool) (sha256 : String → String) (rawMessage : String) :
    String × String :=
  let normalized := normalizeMessage isWord rawMessage
  (normalized, computeFingerprint sha256 normalized)

end Raglogs.Normalization
