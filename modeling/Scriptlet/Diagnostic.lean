import Scriptlet.Problem
import Scriptlet.Span.Location
import Scriptlet.Span.Scan

/-!
# Diagnostics

A problem shown where it is: the message, the place in the file, the line of the source, and below
it marks under the bytes that the problem is about. The marks stay on the line that is shown, and
there is always one.
-/

namespace Scriptlet

/-- A problem of a file. -/
structure Diagnostic where
  path : String
  source : List UInt8
  problem : Problem

namespace Diagnostic

/-- The source line with the problem. -/
def shownLine (d : Diagnostic) : String := d.problem.span.sourceLine d.source

/-- The number of bytes in front of the marks. -/
def indent (d : Diagnostic) : Nat := d.problem.span.column d.source

/-- The number of marks: the bytes of the problem, as far as the line goes, and at least one. -/
def marks (d : Diagnostic) : Nat :=
  max 1 (min d.problem.span.length (max 1 ((Text.bytes d.shownLine).length - d.indent)))

/-- The place in the file, lines and columns counted from one. -/
def place (d : Diagnostic) : String :=
  d.path ++ ":" ++ toString (d.problem.span.line d.source) ++ ":" ++ toString (d.indent + 1)

/-- A row of one character. -/
def row (c : Char) (n : Nat) : String := String.ofList (List.replicate n c)

def render (d : Diagnostic) : String :=
  d.problem.message ++ "\n  --> " ++ d.place ++ "\n   | " ++ d.shownLine
    ++ "\n   | " ++ row ' ' d.indent ++ row '^' d.marks

/-- The same, with the place and the line found by positions, if nothing goes wrong with them. -/
def render? (d : Diagnostic) : Except Fault String := do
  let (line, column) ← d.problem.span.place? d.source
  let shown ← d.problem.span.sourceLine? d.source
  let marks ← Fault.clamp? 1 (max 1 ((Text.bytes shown).length - column)) d.problem.span.length
  let place := d.path ++ ":" ++ toString line ++ ":" ++ toString (column + 1)
  return d.problem.message ++ "\n  --> " ++ place ++ "\n   | " ++ shown
    ++ "\n   | " ++ row ' ' column ++ row '^' marks

end Diagnostic

end Scriptlet
