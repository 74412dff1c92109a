/-!
# UTF-8

A text is a list of characters, its stored form a list of bytes. `encode` writes the bytes of a
text, `decode?` reads them back and refuses bytes that are no text, and `decodeLossy` reads any
bytes, with U+FFFD for what is no character.

## Mechanism

Reading is a machine with one byte of input per step. Between two characters it has nothing in
hand; inside one it holds a `Begun` character: how many bytes are still owed, the bounds of the next
byte, and the bits so far. The bounds of the second byte rule out overlong forms, surrogates and
values above U+10FFFF, so a character that is complete is always well formed.

A byte that can not continue the begun character ends it as a fault and is looked at again as a
first byte. One fault therefore stands for the longest run of bytes that began a character.
-/

namespace Scriptlet.Text

/-! ## Writing -/

/-- The bytes of a text. -/
def encode (chars : List Char) : List UInt8 := chars.flatMap String.utf8EncodeChar

@[simp] theorem encode_nil : encode [] = [] := rfl

@[simp] theorem encode_cons (c : Char) (chars : List Char) :
    encode (c :: chars) = String.utf8EncodeChar c ++ encode chars := by
  simp [encode]

@[simp] theorem encode_append (xs ys : List Char) : encode (xs ++ ys) = encode xs ++ encode ys := by
  simp [encode]

/-- The bytes a string is stored as. -/
def bytes (s : String) : List UInt8 := encode s.toList

@[simp] theorem bytes_append (s t : String) : bytes (s ++ t) = bytes s ++ bytes t := by
  simp [bytes]

/-! ## Reading -/

/-- A character whose first bytes were read. -/
structure Begun where
  /-- The bytes still owed, the next one included. -/
  owed : Nat
  /-- The least and the greatest value of the next byte. -/
  low : UInt8
  high : UInt8
  /-- The bits read so far. -/
  bits : Nat
deriving DecidableEq

/-- What one byte leads to. -/
inductive Step where
  /-- The byte completes a character. -/
  | complete (c : Char)
  /-- The character goes on. -/
  | more (begun : Begun)
  /-- No character has the byte at this place. -/
  | refused

/-- The step of a first byte. -/
def first (b : UInt8) : Step :=
  let n := b.toNat
  if n < 0x80 then .complete (Char.ofNat n)
  else if n < 0xC2 then .refused
  else if n < 0xE0 then .more ⟨1, 0x80, 0xBF, n - 0xC0⟩
  else if n < 0xF0 then
    .more ⟨2, if n = 0xE0 then 0xA0 else 0x80, if n = 0xED then 0x9F else 0xBF, n - 0xE0⟩
  else if n < 0xF5 then
    .more ⟨3, if n = 0xF0 then 0x90 else 0x80, if n = 0xF4 then 0x8F else 0xBF, n - 0xF0⟩
  else .refused

/-- The step of a further byte: it adds six bits. -/
def Begun.next (p : Begun) (b : UInt8) : Step :=
  if p.low ≤ b ∧ b ≤ p.high then
    let bits := p.bits * 64 + (b.toNat - 0x80)
    if p.owed ≤ 1 then .complete (Char.ofNat bits) else .more ⟨p.owed - 1, 0x80, 0xBF, bits⟩
  else .refused

/-- Writes down the step of a first byte and goes on with `rest` in the state it leads to. -/
def Step.emit (rest : Option Begun → List (Option Char)) : Step → List (Option Char)
  | .complete c => some c :: rest none
  | .more begun => rest (some begun)
  | .refused => none :: rest none

/-- The characters of a byte list in order, `none` for each fault. -/
def scan : Option Begun → List UInt8 → List (Option Char)
  | none, [] => []
  | some _, [] => [none]
  | none, b :: rest => (first b).emit (scan · rest)
  | some p, b :: rest =>
    match p.next b with
    | .refused => none :: (first b).emit (scan · rest)
    | step => step.emit (scan · rest)

/-- The text stored as `stored`, if it is UTF-8. -/
def decode? (stored : List UInt8) : Option String :=
  let chars := scan none stored
  if chars.all Option.isSome then some (String.ofList (chars.filterMap id)) else none

/-- The text stored as `stored`, with U+FFFD in place of each fault. -/
def decodeLossy (stored : List UInt8) : String :=
  String.ofList ((scan none stored).map (·.getD '\ufffd'))

/-- The text whose characters have the values of the given bytes. -/
def ofByteValues (values : List UInt8) : String :=
  String.ofList (values.map fun b => Char.ofNat b.toNat)

end Scriptlet.Text
