import Scriptlet.Parse.Steps

/-!
# Reading programs

A program is read statement by statement to the end of the source. Broken statements are left out,
so reading always succeeds, and the problems tell what is missing.

## Termination

A statement and the move behind it bring the end of the source closer, since the statement began
at a token that is not the end.
-/

namespace Scriptlet

/-- What reading a source gives. -/
structure Parsed where
  program : Program
  problems : List Problem
  events : List Event
deriving DecidableEq

namespace Window

/-- The statements from the current token on, and the window at the end of the source. -/
def statements (w : Window) : List Statement × Window :=
  if w.current.kind = .eof then ([], w)
  else
    let step := w.statement
    match step.1 with
    | none => step.2.advance.statements
    | some s =>
      let later := (step.2.note (.accepted s)).advance.statements
      (s :: later.1, later.2)
termination_by w.ahead
decreasing_by
  · exact (Steps.statement w).moves.ahead_advance_lt ‹_›
  · exact ((Steps.statement w).moves.trans (.note _ _)).ahead_advance_lt ‹_›

/-- Reads the rest of the source as a program. -/
def parse (w : Window) : Parsed :=
  let read := w.statements
  let last := read.2.reportPending
  let last := last.note (.finished read.1.length last.problems.length)
  ⟨⟨read.1⟩, last.problems, last.events.toList⟩

end Window

/-- Reads a stored source as a program. -/
def parseBytes (source : List UInt8) : Parsed := (Window.ofCursor (.ofBytes source)).parse

/-- Reads a text as a program. -/
def parse (source : String) : Parsed := parseBytes (Text.bytes source)

end Scriptlet
