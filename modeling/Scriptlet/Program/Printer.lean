import Scriptlet.Numeral
import Scriptlet.Program.Basic
import Scriptlet.Token.Kind

/-!
# Printed programs

A program is printed as the texts of its statements, one directly after the other. A binding and a
`return` end in `;`, an expression on its own does not, and an absent one leaves nothing.

`opening` is the text of the token that the printed form begins with.
-/

namespace Scriptlet

namespace Expr

def render : Expr → String
  | ident name => name
  | int value => Numeral.write value

def opening : Expr → String := render

end Expr

namespace Statement

def render : Statement → String
  | bind name value => Kind.letWord.symbol ++ " " ++ name ++ " = " ++ value.render ++ ";"
  | ret (some value) => Kind.returnWord.symbol ++ " " ++ value.render ++ ";"
  | ret none => Kind.returnWord.symbol ++ ";"
  | expr (some value) => value.render
  | expr none => ""

def opening : Statement → String
  | bind _ _ => Kind.letWord.symbol
  | ret _ => Kind.returnWord.symbol
  | expr (some value) => value.opening
  | expr none => ""

end Statement

namespace Program

def render (p : Program) : String := String.join (p.statements.map Statement.render)

/-- The opening of the first statement, nothing if there is none. -/
def opening (p : Program) : String :=
  match p.statements with
  | [] => ""
  | s :: _ => s.opening

end Program

end Scriptlet
