/-!
# Log records

A record has a level, an origin and a message. Records below the threshold of a run are not shown.
Warnings and errors go to the error stream, all others to the output.

When something was logged is no part of its record, so a line shows no time, and it shows no colours
(`Record.render`).
-/

namespace Scriptlet.Log

/-- How important a record is, from the least on. -/
inductive Level where
  | trace
  | debug
  | info
  | warn
  | error
deriving DecidableEq

namespace Level

def rank : Level → Nat
  | trace => 0
  | debug => 1
  | info => 2
  | warn => 3
  | error => 4

def name : Level → String
  | trace => "trace"
  | debug => "debug"
  | info => "info"
  | warn => "warn"
  | error => "error"

/-- The level at the head of a line, as wide as the widest. -/
def label : Level → String
  | trace => "TRACE"
  | debug => "DEBUG"
  | info => " INFO"
  | warn => " WARN"
  | error => "ERROR"

/-- Whether records of the level go to the error stream. -/
def isUrgent (l : Level) : Bool := warn.rank ≤ l.rank

end Level

/-- The least level that is shown, if any is. -/
abbrev Threshold := Option Level

namespace Threshold

/-- The threshold of a verbosity. Zero shows what is of interest, each step up shows one level more,
and two steps down nothing is shown. -/
def ofVerbosity (v : Int) : Threshold :=
  if v ≤ -2 then none
  else if v = -1 then some .error
  else if v = 0 then some .info
  else if v = 1 then some .debug
  else some .trace

def name : Threshold → String
  | none => "off"
  | some l => l.name

/-- Whether records of a level are shown. -/
def shows : Threshold → Level → Bool
  | none, _ => false
  | some least, l => least.rank ≤ l.rank

end Threshold

/-- The part of the program that a record comes from. -/
inductive Origin where
  | program
  | prompt
  | lexer
  | parser
  | statement
  | expression
deriving DecidableEq

def Origin.label : Origin → String
  | program => "slb"
  | prompt => "slb::commands"
  | lexer => "slb_ast_parsing::lexer"
  | parser => "slb_ast_parsing::parser"
  | statement => "slb_ast_parsing::parser::statement"
  | expression => "slb_ast_parsing::parser::expr"

/-- Something that was logged. -/
structure Record where
  level : Level
  origin : Origin
  message : String
deriving DecidableEq

/-- The line of a record: its level, where it comes from and what it says. The time that a log puts
in front of a line and the codes that colour its parts are left out. -/
def Record.render (r : Record) : String :=
  r.level.label ++ " " ++ r.origin.label ++ ": " ++ r.message ++ "\n"

end Scriptlet.Log
