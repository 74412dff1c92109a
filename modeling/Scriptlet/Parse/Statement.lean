import Scriptlet.Parse.Window

/-!
# Reading statements

A statement is read from the current token of a window on, and ends with the window on its last
token. What can not be completed is dropped: the window then stands where the broken statement
ends, and exactly one problem tells of it. Only an expression on its own is kept without a value.
-/

namespace Scriptlet.Window

/-! ## Expressions -/

/-- How deep expressions may be nested. -/
def maxDepth : Nat := 256

/-- Builds the expression that the current token is. -/
def operand (w : Window) : Option Expr × Window :=
  match w.current.kind with
  | .identifier =>
    let value := Expr.ident w.current.literal
    (some value, w.note (.built value))
  | .integer =>
    match Numeral.read w.current.literal with
    | .ok n => (some (.int n), w.note (.built (.int n)))
    | .error fault => (none, w.report (.badInteger w.current.literal w.current.span fault))
  | _ => (none, w)

/-- Builds the expression that begins at the current token, one level deeper. -/
def expression (w : Window) : Option Expr × Window :=
  if maxDepth ≤ w.depth then (none, w.report (.tooDeep maxDepth w.current.span))
  else
    let built := { w with depth := w.depth + 1 }.operand
    (built.1, { built.2 with depth := built.2.depth - 1 })

/-- Builds an expression, and reports the current token if nothing else was reported about a
missing one. -/
def requiredExpression (w : Window) : Option Expr × Window :=
  let built := w.expression
  if built.1.isNone ∧ built.2.problems.length = w.problems.length then
    (none, built.2.report (.noExpression built.2.current))
  else built

/-- Builds the value of a statement, which is broken without one. -/
def value (w : Window) : Option Expr × Window :=
  match w.requiredExpression with
  | (some e, w) => (some e, w)
  | (none, w) => (none, w.recover)

/-! ## Statements -/

/-- Reads `let name = value` from the keyword on. -/
def binding (w : Window) : Option Statement × Window :=
  match w.require .identifier with
  | .error w => (none, w.recover)
  | .ok named =>
    match named.require .assign with
    | .error w => (none, w.recover)
    | .ok w =>
      match w.advance.value with
      | (none, w) => (none, w)
      | (some e, w) => (some (.bind named.current.literal e), w.takeTerminator)

/-- Reads `return` or `return value` from the keyword on. The value is missing if the statement or
the source ends right after the keyword. -/
def returning (w : Window) : Option Statement × Window :=
  if w.following.kind = .eof then (some (.ret none), w)
  else if w.following.kind = .semicolon then (some (.ret none), w.advance)
  else
    match w.advance.value with
    | (none, w) => (none, w)
    | (some e, w) => (some (.ret (some e)), w.takeTerminator)

/-- An expression on its own. -/
def bare (w : Window) : Option Statement × Window :=
  let built := w.requiredExpression
  (some (.expr built.1), built.2.takeTerminator)

/-- The statement that begins at the current token, nothing if it is broken. -/
def statement (w : Window) : Option Statement × Window :=
  let w := w.note (.dispatched w.current)
  match w.current.kind with
  | .letWord => w.binding
  | .returnWord => w.returning
  | _ => w.bare

end Scriptlet.Window
