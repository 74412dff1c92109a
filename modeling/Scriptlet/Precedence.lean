import Scriptlet.Token.Kind

/-!
# Precedence

How tightly a token binds to the expression in front of it. The scale goes from `lowest`, which
binds nothing, to `call`. No operator extends an expression so far, so a reader of expressions
never looks at the scale.
-/

namespace Scriptlet

/-- A place on the scale, from the loosest to the tightest. -/
inductive Precedence where
  | lowest
  /-- Comparisons `==` and `!=`. -/
  | equals
  /-- Comparisons `<` and `>`. -/
  | lessGreater
  /-- Sums and differences. -/
  | sum
  /-- Products and quotients. -/
  | product
  /-- Operators in front of their operand, `-x` and `!x`. -/
  | unary
  /-- Calls, `f(x)`. -/
  | call
deriving DecidableEq

namespace Precedence

/-- How many places are looser. -/
def rank : Precedence → Nat
  | lowest => 0
  | equals => 1
  | lessGreater => 2
  | sum => 3
  | product => 4
  | unary => 5
  | call => 6

/-- A looser place comes first. -/
def order (p q : Precedence) : Ordering := compare p.rank q.rank

/-- How tightly a token of a kind binds when it follows an expression. -/
def of : Kind → Precedence
  | .eq | .neq => equals
  | .lt | .gt => lessGreater
  | .plus | .minus => sum
  | .star | .slash => product
  | .leftParen => call
  | _ => lowest

end Precedence

end Scriptlet
