/-!
# Pieces and lines

A stored text falls into pieces at its newlines, one more than there are newlines. The lines that
a reader hands out are the pieces a newline ends, without a carriage return right before it, and
the last piece if anything is in it.
-/

namespace Scriptlet.Text

/-- The byte of `\n`. -/
def newline : UInt8 := 10

/-- The byte of `\r`. -/
def carriageReturn : UInt8 := 13

/-- The pieces of a list between the places of a separator, always at least one. -/
def split {α : Type} [DecidableEq α] (separator : α) : List α → List (List α)
  | [] => [[]]
  | a :: rest =>
    if a = separator then [] :: split separator rest
    else
      match split separator rest with
      | [] => [[a]]
      | piece :: more => (a :: piece) :: more

/-- There is always a last piece. -/
theorem split_ne_nil {α : Type} [DecidableEq α] (separator : α) :
    ∀ list : List α, split separator list ≠ []
  | [] => by simp [split]
  | a :: rest => by
    rw [split]
    split
    · simp
    · split <;> simp

/-- Drops one carriage return at the end. -/
def dropReturn (line : List UInt8) : List UInt8 :=
  if line.getLast? = some carriageReturn then line.dropLast else line

/-- Drops every carriage return at the end of a text. -/
def trimReturns (s : String) : String :=
  String.ofList (s.toList.reverse.dropWhile (· == '\r')).reverse

/-- The lines that a reader hands out one after the other. -/
def lines (stored : List UInt8) : List (List UInt8) :=
  let all := split newline stored
  all.dropLast.map dropReturn ++ (all.getLast?.toList.filter fun piece => !piece.isEmpty)

/-- What stands before the first newline. -/
def firstPiece (stored : List UInt8) : List UInt8 := stored.takeWhile (· != newline)

/-- What stands after the last newline. -/
def lastPiece (stored : List UInt8) : List UInt8 :=
  (stored.reverse.takeWhile (· != newline)).reverse

end Scriptlet.Text
