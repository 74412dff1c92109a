import Scriptlet.Text.Line
import Scriptlet.Token.Cursor
import Scriptlet.Transcript

/-!
# Listing tokens

The tokens of a source are listed one per line. The prompt lists the tokens of each line it reads,
as soon as it has read it, until its input is closed or a line is no text.
-/

namespace Scriptlet

/-- Lists the tokens of a source and hands back their defects. -/
def listTokens (source : List UInt8) (t : Transcript) : List Defect × Transcript :=
  let drained := (Cursor.ofBytes source).drain
  let listed := drained.1.foldl
    (fun t token => (t.noteEvent (.lexed token)).print (token.render ++ "\n")) t
  (drained.2.defects, listed.noteEvent (.lexed (.eof ⟨drained.2.stop, 0⟩)))

namespace Prompt

/-- Shown before every line that is read. -/
def sign : String := ">>"

/-- Warns of defects. -/
def warn (origin : Log.Origin) (defects : List Defect) (t : Transcript) : Transcript :=
  defects.foldl (fun t d => t.note ⟨.warn, origin, d.message⟩) t

/-- Asks for a line. -/
def ask (t : Transcript) : Transcript := t.print (sign ++ "\n")

/-- Lists the tokens of a line, if it is a text. -/
def answer (line : List UInt8) (t : Transcript) : Transcript :=
  match ensureText line with
  | .error failure => t.fail failure
  | .ok text =>
    let listed := listTokens text t
    warn .prompt listed.1 listed.2

/-- Notes that there is no further line. -/
def close (t : Transcript) : Transcript :=
  t.note ⟨.debug, .prompt, "input closed, leaving prompt"⟩

/-- Asks for line after line until the input is closed. -/
def run (input : List UInt8) (t : Transcript) : Transcript :=
  let answered := (Text.lines input).foldl (fun t line => answer line (ask t)) t
  close (ask answered)

end Prompt

end Scriptlet
