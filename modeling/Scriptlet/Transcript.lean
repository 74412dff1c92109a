import Scriptlet.Failure
import Scriptlet.Log.Event
import Scriptlet.Text.Utf8

/-!
# Transcripts

All that a run says, in order: output, error output and log records. Which records are shown is
decided when the transcript is read, so a run does not depend on it.

The output may have room for a limited number of bytes. What does not fit is cut off, and the
transcript has failed. A transcript that has failed takes nothing more.
-/

namespace Scriptlet

/-- One thing that was said. -/
inductive Entry where
  | out (written : List UInt8)
  | err (text : String)
  | log (record : Log.Record)
deriving DecidableEq

/-- What a run has said so far. -/
structure Transcript where
  entries : Array Entry
  /-- How many bytes the output still takes, `none` if there is no limit. -/
  room : Option Nat
  failure : Option Failure
deriving DecidableEq

namespace Transcript

/-- Nothing said yet, with room for all output. -/
def empty : Transcript := ⟨#[], none, none⟩

/-- Nothing said yet, with room for `n` bytes of output. -/
def limited (n : Nat) : Transcript := ⟨#[], some n, none⟩

/-- Adds an entry, whatever the transcript's state. -/
def add (e : Entry) (t : Transcript) : Transcript := { t with entries := t.entries.push e }

/-- Gives up for a reason, unless it was given up before. -/
def fail (f : Failure) (t : Transcript) : Transcript := { t with failure := t.failure.or (some f) }

/-- Writes bytes to the output, as many as there is room for. -/
def write (written : List UInt8) (t : Transcript) : Transcript :=
  if t.failure.isSome then t
  else
    match t.room with
    | none => t.add (.out written)
    | some n =>
      let fitting := { t.add (.out (written.take n)) with room := some (n - written.length) }
      if written.length ≤ n then fitting else fitting.fail .full

/-- Writes a text to the output. -/
def print (text : String) (t : Transcript) : Transcript := t.write (Text.bytes text)

/-- Writes a text to the error output. -/
def complain (text : String) (t : Transcript) : Transcript :=
  if t.failure.isSome then t else t.add (.err text)

/-- Logs a record. -/
def note (r : Log.Record) (t : Transcript) : Transcript :=
  if t.failure.isSome then t else t.add (.log r)

/-- Logs an event. -/
def noteEvent (e : Event) (t : Transcript) : Transcript := t.note e.record

/-! ## Reading a transcript -/

/-- What an entry adds to the output when no record is shown. -/
def ownOutput : Entry → List UInt8
  | .out written => written
  | _ => []

/-- All output, without log records. -/
def output (t : Transcript) : List UInt8 := t.entries.toList.flatMap ownOutput

/-- What an entry adds to the output stream at a threshold. -/
def onOutput (shown : Log.Threshold) : Entry → List UInt8
  | .out written => written
  | .err _ => []
  | .log r => if shown.shows r.level && !r.level.isUrgent then Text.bytes r.render else []

/-- What an entry adds to the error stream at a threshold. -/
def onError (shown : Log.Threshold) : Entry → List UInt8
  | .out _ => []
  | .err text => Text.bytes text
  | .log r => if shown.shows r.level && r.level.isUrgent then Text.bytes r.render else []

/-- The output stream at a threshold. -/
def outputStream (shown : Log.Threshold) (t : Transcript) : List UInt8 :=
  t.entries.toList.flatMap (onOutput shown)

/-- The error stream at a threshold. -/
def errorStream (shown : Log.Threshold) (t : Transcript) : List UInt8 :=
  t.entries.toList.flatMap (onError shown)

end Transcript

end Scriptlet
