import Scriptlet.Text.Utf8

/-!
# Failures of files and streams

Why something can not be read or written.
-/

namespace Scriptlet

/-- Why something can not be read or written. -/
inductive Failure where
  /-- There is no such file. -/
  | notFound
  /-- A directory is where a file has to be. -/
  | isDirectory
  /-- A file is where a directory has to be. -/
  | notDirectory
  /-- What was read is no text. -/
  | invalidText
  /-- There is no room for all that has to be written. -/
  | full
deriving DecidableEq

def Failure.message : Failure → String
  | notFound => "No such file or directory (os error 2)"
  | isDirectory => "Is a directory (os error 21)"
  | notDirectory => "Not a directory (os error 20)"
  | invalidText => "stream did not contain valid UTF-8"
  | full => "failed to write whole buffer"

/-- Refuses bytes that are no text. -/
def ensureText (stored : List UInt8) : Except Failure (List UInt8) :=
  if (Text.decode? stored).isSome then .ok stored else .error .invalidText

end Scriptlet
