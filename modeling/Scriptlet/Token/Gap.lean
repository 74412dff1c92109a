/-!
# Gaps

Between two tokens there may be blanks and comments. A blank is a space, a tab, a newline or a
carriage return. A comment begins with `//` and goes on to the next newline or carriage return, or
to the end of the source. The byte that ends a comment is a blank of its own.

## Mechanism

`Gap.length` counts with one bit of state, whether it is inside a comment. It takes one byte per
step, so it ends with the source.
-/

namespace Scriptlet.Gap

/-- Whether a byte is a blank. -/
def isBlank (b : UInt8) : Bool := b == 32 || b == 9 || b == 10 || b == 13

/-- Whether a byte ends a comment. -/
def isLineEnd (b : UInt8) : Bool := b == 10 || b == 13

/-- The byte of `/`. -/
def slash : UInt8 := 47

/-- The number of bytes in front of the next token. -/
def lengthFrom (inComment : Bool) : List UInt8 → Nat
  | [] => 0
  | b :: rest =>
    if inComment then lengthFrom (!isLineEnd b) rest + 1
    else if isBlank b then lengthFrom false rest + 1
    else if b = slash ∧ rest.head? = some slash then lengthFrom true rest + 1
    else 0

/-- The number of bytes in front of the next token. -/
def length (source : List UInt8) : Nat := lengthFrom false source

end Scriptlet.Gap
