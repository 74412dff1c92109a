import Scriptlet.Span.Basic
import Scriptlet.Text.Line
import Scriptlet.Text.Utf8

/-!
# Lines and columns

Where in a source a span begins, as a reader counts it: lines from one, columns in bytes from
zero. An offset past the end of the source stands for the end.
-/

namespace Scriptlet.Span

open Text

/-- The bytes in front of the span. -/
def before (s : Span) (source : List UInt8) : List UInt8 := source.take s.offset

/-- The number of the line that the span begins on, counted from one. -/
def line (s : Span) (source : List UInt8) : Nat := (s.before source).count newline + 1

/-- The bytes of that line in front of the span. -/
def column (s : Span) (source : List UInt8) : Nat := (lastPiece (s.before source)).length

/-- All bytes of the line that the span begins on, up to the newline. -/
def lineBytes (s : Span) (source : List UInt8) : List UInt8 :=
  lastPiece (s.before source) ++ firstPiece (source.drop s.offset)

/-- The text of the line that the span begins on, without carriage returns at its end. A line that
is no text is shown as an empty one. -/
def sourceLine (s : Span) (source : List UInt8) : String :=
  match decode? (s.lineBytes source) with
  | some text => trimReturns text
  | none => ""

end Scriptlet.Span
