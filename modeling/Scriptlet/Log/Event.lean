import Scriptlet.Log.Basic
import Scriptlet.Parse.Event
import Scriptlet.Program.Printer

/-!
# Logged events

The record of each event of reading a source.
-/

namespace Scriptlet.Event

open Log

def record : Event → Record
  | lexed token => ⟨.trace, .lexer, "lexed " ++ token.render ++ " at " ++ token.span.render⟩
  | advanced current following =>
    ⟨.trace, .parser,
      "advanced, current=" ++ current.render ++ " following=" ++ following.render⟩
  | reported problem => ⟨.debug, .parser, "parse error: " ++ problem.message⟩
  | dispatched token => ⟨.debug, .statement, "parsing statement at " ++ token.render⟩
  | built value => ⟨.trace, .expression, "built expression " ++ value.render⟩
  | accepted statement => ⟨.trace, .parser, "parsed statement " ++ statement.render⟩
  | finished statements problems =>
    ⟨.debug, .parser,
      "parsed " ++ toString statements ++ " statements with " ++ toString problems ++ " errors"⟩

end Scriptlet.Event
