import Scriptlet.Session

/-!
# The command

Reads files and standard input, carries out one invocation, and writes what it says to the two
streams in the order it was said.
-/

namespace Scriptlet.Console

/-- Writes what is shown of a transcript. -/
def speak (shown : Log.Threshold) (t : Transcript) : IO Unit := do
  let out ← IO.getStdout
  let err ← IO.getStderr
  for entry in t.entries do
    out.write ⟨(Transcript.onOutput shown entry).toArray⟩
    err.write ⟨(Transcript.onError shown entry).toArray⟩
  out.flush

/-- Writes a report and gives the exit code. -/
def conclude (o : Outcome) : IO UInt32 := do
  for line in o.report do
    IO.eprintln line
  return o.exitCode.toUInt32

/-- Reads one line with its newline, nothing at the end of the input. -/
partial def readLine (input : IO.FS.Stream) (line : ByteArray) : IO ByteArray := do
  let read ← input.read 1
  let line := line ++ read
  if read.isEmpty || read.data.contains Text.newline then return line
  readLine input line

/-- Answers line after line as they come in. -/
partial def converse (shown : Log.Threshold) (input : IO.FS.Stream) : IO UInt32 := do
  speak shown (Prompt.ask .empty)
  let stored ← readLine input .empty
  if stored.isEmpty then
    speak shown (Prompt.close .empty)
    return 0
  let answered := (Text.lines stored.toList).foldl (fun t line => Prompt.answer line t) .empty
  speak shown answered
  match answered.failure with
  | some failure => conclude ⟨answered, [failure.message]⟩
  | none => converse shown input

/-- The failure that an error of the operating system stands for. Its code is given as it is or
negated. -/
def failureOf : IO.Error → Option Failure
  | .noFileOrDirectory _ _ _ => some .notFound
  | .inappropriateType _ code _ =>
    if code = 21 ∨ code = 0 - 21 then some .isDirectory
    else if code = 20 ∨ code = 0 - 20 then some .notDirectory
    else none
  | _ => none

/-- Carries out a command on a file. -/
def runOnFile (i : Invocation) (file : String) : IO UInt32 := do
  let stored : Except Failure (List UInt8) ←
    match ← (IO.FS.readBinFile file).toBaseIO with
    | .ok content => pure (.ok content.toList)
    | .error e =>
      match failureOf e with
      | some failure => pure (.error failure)
      | none => throw e
  let outcome := Session.run i (fun _ => stored.bind ensureText) []
  speak (Session.threshold i) outcome.transcript
  conclude outcome

/-- Carries out what the command line asks for. -/
def carryOut (words : List String) : IO UInt32 := do
  match CommandLine.read words with
  | .error .version =>
    IO.print Session.versionLine
    return 0
  | .error .help =>
    IO.println Refusal.help.message
    return 0
  | .error refusal =>
    IO.eprintln ("error: " ++ refusal.message)
    return Session.refusedCode.toUInt32
  | .ok i =>
    match i.command with
    | .tokens none =>
      speak (Session.threshold i) (Session.opening i .empty)
      converse (Session.threshold i) (← IO.getStdin)
    | .tokens (some file) => runOnFile i file
    | .parse file => runOnFile i file

end Scriptlet.Console

def main (words : List String) : IO UInt32 := Scriptlet.Console.carryOut words
