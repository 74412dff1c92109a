import Scriptlet.Numeral
import Scriptlet.Token.Basic
import Scriptlet.Text.Quoted

/-!
# Problems

What can be wrong with a source. A problem concerns one statement at most: reading goes on behind
it, and all problems are handed back beside the program.
-/

namespace Scriptlet

/-- A problem of a source. -/
inductive Problem where
  /-- A token of another kind stands where one of kind `wanted` has to. -/
  | wrongKind (wanted : Kind) (found : Token)
  /-- A literal is no integer in range. -/
  | badInteger (literal : String) (span : Span) (fault : Numeral.Fault)
  /-- No expression begins with the token. -/
  | noExpression (token : Token)
  /-- An expression is nested in more than `limit` others. -/
  | tooDeep (limit : Nat) (span : Span)
  /-- A token has a defect. -/
  | defect (defect : Defect)
deriving DecidableEq

namespace Problem

/-- The place the problem is about. -/
def span : Problem → Span
  | wrongKind _ found => found.span
  | badInteger _ span _ => span
  | noExpression token => token.span
  | tooDeep _ span => span
  | defect d => d.span

def message : Problem → String
  | wrongKind wanted found =>
    "expected next token to be `" ++ wanted.symbol ++ "`, got `" ++ found.kind.symbol
      ++ "` instead"
  | badInteger literal _ _ => "could not parse " ++ Text.quote literal ++ " as integer"
  | noExpression token => "no prefix builder for `" ++ token.kind.symbol ++ "` found"
  | tooDeep limit _ => "expression nested deeper than " ++ toString limit ++ " levels"
  | defect d => d.message

/-- What the problem comes from in turn. -/
def cause : Problem → Option String
  | badInteger _ _ fault => some fault.message
  | _ => none

/-- Whether two problems count as the same. Tokens are compared without their places, all else is
compared in full. -/
def same : Problem → Problem → Bool
  | wrongKind k t, wrongKind l u => k == l && t.same u
  | noExpression t, noExpression u => t.same u
  | p, q => p == q

/-- Whether the problem was seen in a single token, before any statement was read. -/
def isLexical : Problem → Bool
  | defect _ => true
  | _ => false

/-- The problem in a source that has `n` more bytes in front. -/
def shift (n : Nat) : Problem → Problem
  | wrongKind wanted found => wrongKind wanted (found.shift n)
  | badInteger literal span fault => badInteger literal (span.shift n) fault
  | noExpression token => noExpression (token.shift n)
  | tooDeep limit span => tooDeep limit (span.shift n)
  | defect (.unclosedString span) => defect (.unclosedString (span.shift n))

end Problem

end Scriptlet
