import Scriptlet.Proofs.Parse.Telling
import Scriptlet.Proofs.Prompt
import Scriptlet.Proofs.Session.Verbosity

/-!
# What the log tells of a program

The most verbose session that reads a program logs every event of reading it, so the log can be read
as the source and its result: the lines of a kind, told by how their messages begin, are those of the
tokens, of the moves, of the problems or of the statements (`log_tells_program`).

There are two steps. What a session says about a program is known entry by entry
(`entries_programOf`), and how a message begins tells what kind of event it is about
(`Event.Told`).
-/

namespace Scriptlet

open Text (bytes)

/-! ## How messages begin -/

/-- Whether the message of a record begins with a text. -/
def Log.Record.begins (start : String) (r : Record) : Bool :=
  start.toList.isPrefixOf r.message.toList

namespace Event

end Event

/-! ## What a session says about a program -/

/-- The record of an entry. -/
def Entry.record? : Entry → Option Log.Record
  | .log r => some r
  | .out _ | .err _ => none

namespace Transcript

/-- The records that are shown at a threshold. -/
def logged (shown : Log.Threshold) (t : Transcript) : List Log.Record :=
  (t.entries.toList.filterMap Entry.record?).filter fun r => shown.shows r.level

/-- Those of them whose messages begin with a text. -/
def lines (shown : Log.Threshold) (start : String) (t : Transcript) : List Log.Record :=
  (t.logged shown).filter (·.begins start)

end Transcript

namespace Session

open Transcript

section Program

variable {text : String → Except Failure (List UInt8)} {file : String} {source : List UInt8}

end Program

end Session

end Scriptlet
