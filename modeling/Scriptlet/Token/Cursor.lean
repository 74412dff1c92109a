import Scriptlet.Token.Basic
import Scriptlet.Token.Gap
import Scriptlet.Token.Lexeme

/-!
# Cursors

A cursor stands in a source and hands out its tokens one at a time. At the end of the source it
hands out an `Eof` token, and from then on only that one. Defects of the tokens handed out are kept
until someone takes them.

## Termination

A token other than `Eof` covers at least one byte, so the bytes in front of the cursor get fewer
with each of them (`length_rest_next`). `drain` ends by that measure.
-/

namespace Scriptlet

/-- A place in a source. -/
structure Cursor where
  /-- The number of bytes behind the cursor. -/
  offset : Nat
  /-- The bytes in front of it. -/
  rest : List UInt8
  /-- Whether the end of the source was handed out. -/
  exhausted : Bool
  /-- The defects that nobody has taken yet. -/
  defects : List Defect
deriving DecidableEq

namespace Cursor

/-- At the front of a source. -/
def ofBytes (source : List UInt8) : Cursor := ⟨0, source, false, []⟩

/-- At the front of a text. -/
def ofText (text : String) : Cursor := ofBytes (Text.bytes text)

/-- The position where the source ends. -/
def stop (c : Cursor) : Nat := c.offset + c.rest.length

/-! ## One token -/

/-- The token that a lexeme becomes when `skipped` bytes stand in front of it. -/
def token (c : Cursor) (skipped : Nat) (l : Lexeme) : Token :=
  ⟨l.kind, l.literal, ⟨c.offset + skipped, l.length⟩⟩

/-- The defects of such a token. -/
def defectsOf (c : Cursor) (skipped : Nat) (l : Lexeme) : List Defect :=
  if l.unclosed then [.unclosedString ⟨c.offset + skipped, l.length⟩] else []

/-- The cursor behind a lexeme. -/
def past (c : Cursor) (skipped : Nat) (l : Lexeme) : Cursor where
  offset := c.offset + skipped + l.length
  rest := c.rest.drop (skipped + l.length)
  exhausted := l.kind == .eof
  defects := c.defects ++ c.defectsOf skipped l

/-- Hands out the next token. Where nothing is recognized the source counts as ended. -/
def next (c : Cursor) : Token × Cursor :=
  if c.exhausted then (.eof ⟨c.stop, 0⟩, c)
  else
    let skipped := Gap.length c.rest
    match Lexeme.recognize? (c.rest.drop skipped) with
    | some l => (c.token skipped l, c.past skipped l)
    | none => (.eof ⟨c.stop, 0⟩, { c with exhausted := true })

/-- Handing out a token never brings bytes back. -/
theorem length_rest_next_le (c : Cursor) : c.next.2.rest.length ≤ c.rest.length := by
  unfold next
  split
  · exact Nat.le_refl _
  · dsimp only
    split
    · simp [past]
    · exact Nat.le_refl _

/-- A token other than the end takes at least one byte. -/
theorem length_rest_next {c : Cursor} (h : c.next.1.kind ≠ .eof) :
    c.next.2.rest.length < c.rest.length := by
  revert h
  unfold next
  split
  · exact fun h => absurd rfl h
  · dsimp only
    split
    · next l found =>
      intro h
      have ⟨pos, nonempty⟩ := Lexeme.length_pos_of_recognize? found h
      have := List.length_pos_iff.2 nonempty
      simp only [past, List.length_drop] at this ⊢
      omega
    · exact fun h => absurd rfl h

/-! ## Several tokens -/

/-- Hands out the next token unless the source has ended. -/
def next? (c : Cursor) : Option Token × Cursor :=
  let step := c.next
  (if step.1.kind = .eof then none else some step.1, step.2)

/-- Hands out a number of tokens to nobody. -/
def skip : Nat → Cursor → Cursor
  | 0, c => c
  | n + 1, c => skip n c.next.2

/-- Hands out all tokens that are left before the end. -/
def drain (c : Cursor) : List Token × Cursor :=
  let step := c.next
  if step.1.kind = .eof then ([], step.2)
  else
    let later := drain step.2
    (step.1 :: later.1, later.2)
termination_by c.rest.length
decreasing_by exact length_rest_next ‹_›

/-- The tokens that are left before the end. -/
def remaining (c : Cursor) : List Token := c.drain.1

/-- Takes the defects kept so far. -/
def takeDefects (c : Cursor) : List Defect × Cursor := (c.defects, { c with defects := [] })

end Cursor

end Scriptlet
