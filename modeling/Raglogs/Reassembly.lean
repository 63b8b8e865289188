import Raglogs.Parsing

/-!
Reassembly of the lines a container runtime splits. A record tagged P is held back
until the next record of its stream; a record of the other stream, any other line, or
the end of the input lets it go as a line of its own. What is let go is kept with the
parts it was joined from, and its text is the line that is yielded.
-/

namespace Raglogs.Reassembly

open Regex Regex.Pattern Text Parsing

/-- The groups of a line that a container runtime wrote. -/
structure CriFields where
  ts : String
  stream : String
  tag : String
  msg : String
deriving DecidableEq

def fieldsOf (m : Match) : CriFields where
  ts := (m.named "ts").getD ""
  stream := (m.named "stream").getD ""
  tag := (m.named "tag").getD ""
  msg := (m.named "msg").getD ""

def criFields (line : String) : Option CriFields := (criPattern.matchStart line).map fieldsOf

/-- The fragments held back, of which there is one, with the instant and stream of it. -/
structure Pending where
  ts : String
  stream : String
  first : String
  others : List String

def Pending.parts (p : Pending) : List String := p.first :: p.others

def Pending.append (p : Pending) (msg : String) : Pending := { p with others := p.others ++ [msg] }

/-- Hold a fragment back. -/
def CriFields.pending (cri : CriFields) : Pending := ⟨cri.ts, cri.stream, cri.msg, []⟩

inductive Piece
  | line (text : String)
  | joined (p : Pending)

def Piece.text : Piece → String
  | .line text => text
  | .joined p => p.ts ++ " " ++ p.stream ++ " F " ++ String.join p.parts

/-- Let the fragments go. -/
def takeJoined : Option Pending → List Piece
  | none => []
  | some p => [.joined p]

/-- One line: what is yielded, and what is held back. -/
def step (pending : Option Pending) (line : String) : List Piece × Option Pending :=
  match criFields line with
  | none => (takeJoined pending ++ [.line line], none)
  | some cri =>
      match pending with
      | none => if cri.tag = "P" then ([], some cri.pending) else ([.line line], none)
      | some p =>
          if p.stream ≠ cri.stream then
            -- the fragments of the other stream are let go unfinished
            if cri.tag = "P" then ([.joined p], some cri.pending)
            else ([.joined p, .line line], none)
          else if cri.tag = "P" then ([], some (p.append cri.msg))
          else ([.joined (p.append cri.msg)], none)

def pieces : Option Pending → List String → List Piece
  | pending, [] => takeJoined pending
  | pending, line :: rest => (step pending line).1 ++ pieces (step pending line).2 rest

/-- Join the fragments of the lines. -/
def reassembleCriFragments (lines : List String) : List String :=
  (pieces none lines).map Piece.text

end Raglogs.Reassembly
