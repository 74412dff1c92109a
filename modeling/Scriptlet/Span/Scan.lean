import Scriptlet.Text.Line
import Scriptlet.Text.Utf8
import Scriptlet.Span.Basic

/-!
# Lines by position

The place and the line of a span once more, found by positions as in a stored array: backwards to
the newline in front of the span and forwards to the one behind its beginning. Nothing is cut off
silently. A range has to lie in the source, a difference must not be negative, and what is not so is
a `Fault`. Only a range that cuts a character in two is no fault: there is no text in it.
-/

namespace Scriptlet

/-- What can go wrong when positions are computed. -/
inductive Fault where
  /-- A range ends in front of its beginning or behind the source. -/
  | range
  /-- A number is taken from a smaller one. -/
  | difference
  /-- A number has to lie between bounds of which the lower one is the greater. -/
  | bounds
deriving DecidableEq

namespace Fault

/-- The difference of two numbers. -/
def subtract? (m n : Nat) : Except Fault Nat :=
  if n ≤ m then .ok (m - n) else .error .difference

/-- The number between two bounds that is nearest to `n`. -/
def clamp? (low high n : Nat) : Except Fault Nat :=
  if low ≤ high then .ok (max low (min high n)) else .error .bounds

end Fault

namespace Text

/-- The position of the last `b`. -/
def lastIndexOf? (b : UInt8) : List UInt8 → Option Nat
  | [] => none
  | a :: rest =>
    match lastIndexOf? b rest with
    | some i => some (i + 1)
    | none => if a = b then some 0 else none

/-- The position behind the last newline, the first one if there is none. -/
def behindNewline (stored : List UInt8) : Nat :=
  match lastIndexOf? newline stored with
  | some last => last + 1
  | none => 0

/-- The number of bytes behind the last newline. -/
def lengthBehindNewline? (stored : List UInt8) : Except Fault Nat :=
  match lastIndexOf? newline stored with
  | some last => do
    let behind ← Fault.subtract? stored.length last
    Fault.subtract? behind 1
  | none => .ok stored.length

/-- The bytes from `start` up to `stop`. -/
def slice? (stored : List UInt8) (start stop : Nat) : Except Fault (List UInt8) :=
  if start ≤ stop ∧ stop ≤ stored.length then .ok ((stored.take stop).drop start)
  else .error .range

/-- Whether no character goes on at a position: there is the first byte of one, or the end. -/
def isBoundary (stored : List UInt8) (position : Nat) : Bool :=
  match stored[position]? with
  | some b => b < 0x80 || 0xC0 ≤ b
  | none => position == stored.length

/-- The text from `start` up to `stop`, if no character is cut in two. -/
def textBetween? (stored : List UInt8) (start stop : Nat) : Option String :=
  if start ≤ stop ∧ isBoundary stored start ∧ isBoundary stored stop then
    decode? ((stored.take stop).drop start)
  else none

end Text

namespace Span

open Text

/-- The line of a span, counted from one, and its column, counted from zero. -/
def place? (s : Span) (source : List UInt8) : Except Fault (Nat × Nat) := do
  let front ← slice? source 0 (min s.offset source.length)
  let column ← lengthBehindNewline? front
  return (1 + front.count newline, column)

/-- Where the line of a span begins and ends. -/
def lineRange? (s : Span) (source : List UInt8) : Except Fault (Nat × Nat) := do
  let offset := min s.offset source.length
  let front ← slice? source 0 offset
  let back ← slice? source offset source.length
  return (behindNewline front, offset + back.findIdx (· == newline))

/-- The text of the line of a span, without carriage returns at its end. -/
def sourceLine? (s : Span) (source : List UInt8) : Except Fault String := do
  let (start, stop) ← s.lineRange? source
  return trimReturns ((textBetween? source start stop).getD "")

end Span

end Scriptlet
