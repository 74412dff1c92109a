import Scriptlet.Problem
import Scriptlet.Program.Basic

/-!
# Events

What happens while a source is read, in the order it happens. The program and its problems can be
found in the events again, and a log shows them one line each.
-/

namespace Scriptlet

/-- Something that happened while a source was read. -/
inductive Event where
  /-- A token was recognized. -/
  | lexed (token : Token)
  /-- The window moved on and now shows these two tokens. -/
  | advanced (current following : Token)
  /-- A problem was reported. -/
  | reported (problem : Problem)
  /-- A statement begins at a token. -/
  | dispatched (token : Token)
  /-- An expression is complete. -/
  | built (value : Expr)
  /-- A statement is complete. -/
  | accepted (statement : Statement)
  /-- The source has ended, with so many statements and problems. -/
  | finished (statements problems : Nat)
deriving DecidableEq

end Scriptlet
