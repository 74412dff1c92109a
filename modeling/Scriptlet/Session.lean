import Scriptlet.CommandLine
import Scriptlet.Diagnostic
import Scriptlet.Parse.Program
import Scriptlet.Prompt

/-!
# Sessions

A session carries out one invocation. It says what it has to say in a transcript and ends with a
report, which is empty if all went well.
-/

namespace Scriptlet

/-- What a session leaves. -/
structure Outcome where
  transcript : Transcript
  /-- What went wrong, and what that came from in turn. -/
  report : List String
deriving DecidableEq

namespace Outcome

/-- Zero if there is nothing to report. -/
def exitCode (o : Outcome) : Nat := if o.report.isEmpty then 0 else 1

end Outcome

namespace Session

/-- What `--version` answers. -/
def versionLine : String := Refusal.version.message ++ "\n"

/-- The exit code of a command line that is refused. -/
def refusedCode : Nat := 2

/-! ## What is logged about the invocation -/

/-- A command as it is logged. -/
def renderCommand : Command → String
  | .tokens none => "Tokens \x7b file: None \x7d"
  | .tokens (some file) => "Tokens \x7b file: Some(" ++ Text.quote file ++ ") \x7d"
  | .parse file => "Parse \x7b file: " ++ Text.quote file ++ " \x7d"

/-- An invocation as it is logged. -/
def renderInvocation (i : Invocation) : String :=
  "Args \x7b logging: LoggingArgs \x7b verbose: " ++ toString i.flags.verbose ++ ", quiet: "
    ++ toString i.flags.quiet ++ " \x7d, command: " ++ renderCommand i.command ++ " \x7d"

/-- The first records of every session. -/
def opening (i : Invocation) (t : Transcript) : Transcript :=
  (t.note ⟨.trace, .program, "starting slb with args: " ++ renderInvocation i⟩).note
    ⟨.debug, .program, "slb version: 0.0.0"⟩

/-! ## Commands -/

/-- The end of a session that could not read its file. -/
def unreadable (file : String) (failure : Failure) (t : Transcript) : Outcome :=
  ⟨t, ["could not read " ++ file, failure.message]⟩

/-- The report on a program with so many problems. -/
def problemReport (file : String) : Nat → List String
  | 0 => []
  | 1 => ["could not parse " ++ file ++ ", found 1 problem"]
  | n => ["could not parse " ++ file ++ ", found " ++ toString n ++ " problems"]

/-- Lists the tokens of a source. -/
def tokensOf (source : List UInt8) (t : Transcript) : Outcome :=
  let listed := listTokens source t
  ⟨Prompt.warn .program listed.1 listed.2, []⟩

/-- Lists the tokens of each line of the input. -/
def prompt (input : List UInt8) (t : Transcript) : Outcome :=
  let answered := Prompt.run input t
  ⟨answered, answered.failure.toList.map Failure.message⟩

/-- Prints the program that a source holds, and its problems. -/
def programOf (file : String) (source : List UInt8) (t : Transcript) : Outcome :=
  let parsed := parseBytes source
  let logged := (parsed.events.foldl (fun t e => t.noteEvent e) t).note
    ⟨.debug, .program,
      Text.quote file ++ " has " ++ toString parsed.program.size ++ " statements"⟩
  let printed := logged.print (parsed.program.render ++ "\n")
  let complained := parsed.problems.foldl
    (fun t p => t.complain ("error: " ++ Diagnostic.render ⟨file, source, p⟩ ++ "\n")) printed
  ⟨complained, problemReport file parsed.problems.length⟩

/-- Carries out an invocation, with a way to read the text of a file and the whole input. -/
def run (i : Invocation) (text : String → Except Failure (List UInt8)) (input : List UInt8) :
    Outcome :=
  let t := opening i .empty
  match i.command with
  | .tokens none => prompt input t
  | .tokens (some file) =>
    match text file with
    | .ok source => tokensOf source t
    | .error failure => unreadable file failure t
  | .parse file =>
    match text file with
    | .ok source => programOf file source t
    | .error failure => unreadable file failure t

/-- The threshold that an invocation asks for. -/
def threshold (i : Invocation) : Log.Threshold := .ofVerbosity i.flags.verbosity

end Session

end Scriptlet
