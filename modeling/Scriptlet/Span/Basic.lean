/-!
# Spans

A span is a run of bytes in a source: where it begins and how many bytes it has. Positions are
natural numbers. Where a position is handed out it has to fit in 64 bits, and the operations that
add an offset and a length fail with `Overflow` when the sum does not. A length that would be below
zero has no place either.
-/

namespace Scriptlet

/-- A run of bytes in a source. -/
structure Span where
  offset : Nat
  length : Nat
deriving DecidableEq, Inhabited

/-- A number has no place in 64 bits. -/
inductive Overflow where
  /-- The sum of an offset and a length is too large. -/
  | sum
  /-- A position is taken from a smaller one. -/
  | difference
deriving DecidableEq

def Overflow.message : Overflow → String
  | .sum => "attempt to add with overflow"
  | .difference => "attempt to subtract with overflow"

namespace Span

/-- The position right after the span. -/
def stop (s : Span) : Nat := s.offset + s.length

/-- The positions that fit in 64 bits lie below. -/
def positionBound : Nat := UInt64.size

/-- The position right after the span, if it fits. -/
def stop? (s : Span) : Except Overflow Nat :=
  if s.stop < positionBound then .ok s.stop else .error .sum

/-- The empty span right after the span. -/
def after? (s : Span) : Except Overflow Span := do
  let stop ← s.stop?
  return ⟨stop, 0⟩

/-- The least span that covers both. -/
def join? (s t : Span) : Except Overflow Span := do
  let offset := min s.offset t.offset
  let stop := max (← s.stop?) (← t.stop?)
  if offset ≤ stop then .ok ⟨offset, stop - offset⟩ else .error .difference

/-- Whether no byte is in the span. -/
def isEmpty (s : Span) : Bool := s.length == 0

/-- A span as `begin..end`. -/
def render (s : Span) : String := toString s.offset ++ ".." ++ toString s.stop

/-- A span as `begin..end`, if its end fits. -/
def render? (s : Span) : Except Overflow String := do
  let stop ← s.stop?
  return toString s.offset ++ ".." ++ toString stop

/-- Spans are ordered by their offset, those with the same offset by their length. -/
def order (s t : Span) : Ordering :=
  (compare s.offset t.offset).then (compare s.length t.length)

/-- The span in a source that has `n` more bytes in front. -/
def shift (n : Nat) (s : Span) : Span := ⟨n + s.offset, s.length⟩

end Span

end Scriptlet
