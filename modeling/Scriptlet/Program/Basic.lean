/-!
# Programs

A program is a list of statements. A statement binds a name to a value, returns, or is an
expression on its own. Names and integers are the only expressions.
-/

namespace Scriptlet

/-- An expression. -/
inductive Expr where
  | ident (name : String)
  | int (value : Int64)
deriving DecidableEq

/-- A statement. -/
inductive Statement where
  /-- A binding, `let name = value;`. -/
  | bind (name : String) (value : Expr)
  /-- A return, `return value;`, or `return;` without a value. -/
  | ret (value : Option Expr)
  /-- An expression on its own. It is absent where a source had one that could not be built, and
  the statement still marks the place. -/
  | expr (value : Option Expr)
deriving DecidableEq

/-- A program, its statements in the order of the source. -/
structure Program where
  statements : List Statement
deriving DecidableEq

namespace Program

/-- The program without statements. -/
def empty : Program := ⟨[]⟩

/-- Adds a statement at the end. -/
def push (p : Program) (s : Statement) : Program := ⟨p.statements ++ [s]⟩

/-- The number of statements. -/
def size (p : Program) : Nat := p.statements.length

def isEmpty (p : Program) : Bool := p.statements.isEmpty

end Program

end Scriptlet
