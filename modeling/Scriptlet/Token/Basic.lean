import Scriptlet.Span.Basic
import Scriptlet.Text.Quoted
import Scriptlet.Token.Kind

/-!
# Tokens

A token is a kind, its text and the place it was read from. Two tokens count as the same if kind and
text agree, wherever they stand.
-/

namespace Scriptlet

/-- A token of a source. -/
structure Token where
  kind : Kind
  /-- The text of the token, of a string what stands between the quotes. -/
  literal : String
  span : Span
deriving DecidableEq, Inhabited

namespace Token

/-- The end of the source, at a place. -/
def eof (span : Span) : Token := ⟨.eof, "", span⟩

/-- Whether kind and text agree. -/
def same (a b : Token) : Bool := a.kind == b.kind && a.literal == b.literal

/-- How a token is shown: the name of its kind around the quoted text. -/
def render (t : Token) : String := t.kind.name ++ "(" ++ Text.quote t.literal ++ ")"

/-- The token in a source that has `n` more bytes in front. -/
def shift (n : Nat) (t : Token) : Token := { t with span := t.span.shift n }

end Token

/-- What is wrong with a token that was read all the same. -/
inductive Defect where
  /-- A string without a closing quote. -/
  | unclosedString (span : Span)
deriving DecidableEq

namespace Defect

def span : Defect → Span
  | unclosedString span => span

def message : Defect → String
  | unclosedString _ => "unterminated string literal, expected a closing `\"`"

end Defect

end Scriptlet
