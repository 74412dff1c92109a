import Scriptlet.FileTable
import Scriptlet.Proofs.Transcript.Speech
import Scriptlet.Session

/-!
# Verbosity

The flags about logging decide which records are shown, and nothing else. Behind its opening a
session says the same whatever the flags are (`exists_speech`). The opening does tell the flags, in
a record that is shown at the highest verbosity only, so two sessions with different verbosities
never show it both.

Hence the streams of the less verbose session are those of the more verbose one without the records
that only the latter shows (`run_less_verbose`).
-/

namespace Scriptlet

/-! ## Thresholds -/

namespace Log

/-- The least verbosity at which records of a level are shown. -/
def Level.verbosity : Level → Int
  | trace => 2
  | debug => 1
  | info => 0
  | warn => 0
  | error => -1

theorem shows_ofVerbosity (v : Int) (l : Level) :
    (Threshold.ofVerbosity v).shows l = true ↔ l.verbosity ≤ v := by
  unfold Threshold.ofVerbosity
  repeat' split
  all_goals cases l
  all_goals simp [Threshold.shows, Level.rank, Level.verbosity]
  all_goals omega

end Log

/-! ## Records that only one of two sessions shows -/

/-- Whether the entry is a record that is shown at the second threshold but not at the first. -/
def Entry.isRevealed (less more : Log.Threshold) : Entry → Bool
  | .log r => more.shows r.level && !less.shows r.level
  | .out _ | .err _ => false

/-- Whether the entry is a record. -/
def Entry.isRecord : Entry → Bool
  | .log _ => true
  | .out _ | .err _ => false

namespace Transcript

/-- All that was said without the records, output and error output in their order. -/
def spoken (t : Transcript) : List Entry := t.entries.toList.filter fun e => !e.isRecord

/-- What is left of the entries when those are deleted that only the second threshold shows. -/
def unrevealed (less more : Log.Threshold) (t : Transcript) : List Entry :=
  t.entries.toList.filter fun e => !e.isRevealed less more

/-- What a stream is made of: each entry adds the same at all thresholds, but for a record, which
adds nothing where it is not shown. -/
structure Channel (on : Log.Threshold → Entry → List UInt8) : Prop where
  hidden : ∀ {shown r}, shown.shows r.level = false → on shown (.log r) = []
  alike : ∀ {less more e}, (∀ r, e = .log r → less.shows r.level = more.shows r.level) →
    on less e = on more e

theorem channel_onOutput : Channel onOutput where
  hidden := fun h => by simp [onOutput, h]
  alike := fun {_ _ e} h => by
    cases e with
    | log r => simp [onOutput, h r rfl]
    | out | err => rfl

theorem channel_onError : Channel onError where
  hidden := fun h => by simp [onError, h]
  alike := fun {_ _ e} h => by
    cases e with
    | log r => simp [onError, h r rfl]
    | out | err => rfl

/-- Entries that add nothing can be left out. -/
theorem flatMap_eq_flatMap_filter {f g : Entry → List UInt8} {p : Entry → Bool}
    (dropped : ∀ e, p e = false → f e = []) (kept : ∀ e, p e = true → f e = g e) :
    ∀ entries : List Entry, entries.flatMap f = (entries.filter p).flatMap g
  | [] => rfl
  | e :: entries => by
    have later := flatMap_eq_flatMap_filter dropped kept entries
    cases h : p e with
    | false =>
      rw [List.flatMap_cons, dropped e h, List.filter_cons_of_neg (by simp [h]), later]
      rfl
    | true => rw [List.flatMap_cons, kept e h, List.filter_cons_of_pos h, List.flatMap_cons, later]

/-- The stream at a threshold is that at a higher one, without the records that only the latter
shows. -/
theorem Channel.flatMap_eq {on : Log.Threshold → Entry → List UInt8} (channel : Channel on)
    {less more : Log.Threshold} (le : ∀ l, less.shows l = true → more.shows l = true)
    (t : Transcript) :
    t.entries.toList.flatMap (on less) = (t.unrevealed less more).flatMap (on more) := by
  refine flatMap_eq_flatMap_filter ?_ ?_ t.entries.toList
  · intro e revealed
    cases e with
    | log r =>
      have shown : more.shows r.level = true ∧ less.shows r.level = false := by
        simpa [Entry.isRevealed] using revealed
      exact channel.hidden shown.2
    | out | err => cases revealed
  · intro e kept
    refine channel.alike ?_
    rintro r rfl
    have both : more.shows r.level = false ∨ less.shows r.level = true := by
      simpa [Entry.isRevealed] using kept
    rcases both with nowhere | shown
    · rw [nowhere]
      exact Bool.eq_false_iff.mpr fun shown => Bool.eq_false_iff.mp nowhere (le _ shown)
    · rw [shown, le _ shown]

/-! ## Sessions are speeches -/

theorem Speech.tokensOf (source : List UInt8) :
    Speech fun t => (Session.tokensOf source t).transcript :=
  (listTokens source).andThen (warn .program (Cursor.ofBytes source).drain.2.defects)

theorem Speech.programOf (file : String) (source : List UInt8) :
    Speech fun t => (Session.programOf file source t).transcript := by
  have logged := (foldl (fun e : Event => noteEvent e) (parseBytes source).events).andThen
    (note ⟨.debug, .program, Text.quote file ++ " has "
      ++ toString (parseBytes source).program.size ++ " statements"⟩)
  have printed := logged.andThen (print ((parseBytes source).program.render ++ "\n"))
  exact printed.andThen (foldl
    (fun p : Problem => complain ("error: " ++ Diagnostic.render ⟨file, source, p⟩ ++ "\n"))
    (parseBytes source).problems)

end Transcript

namespace Session

open Transcript

/-- **Behind its opening a session says the same whatever the flags are**, and its report depends on
nothing but whether that failed. -/
theorem exists_speech (command : Command) (text : String → Except Failure (List UInt8))
    (input : List UInt8) : ∃ (f : Transcript → Transcript) (report : Option Failure → List String),
      Speech f ∧ ∀ flags, run ⟨flags, command⟩ text input
        = ⟨f (opening ⟨flags, command⟩ .empty),
            report (f (opening ⟨flags, command⟩ .empty)).failure⟩ := by
  cases command with
  | tokens file =>
    cases file with
    | none =>
      exact ⟨_, fun failure => failure.toList.map Failure.message, .run input, fun flags => rfl⟩
    | some file =>
      cases read : text file with
      | ok source =>
        refine ⟨_, fun _ => [], .tokensOf source, fun flags => ?_⟩
        simp only [run, read]
        rfl
      | error failure =>
        refine ⟨_, fun _ => ["could not read " ++ file, failure.message], .silence, fun flags => ?_⟩
        simp only [run, read]
        rfl
  | parse file =>
    cases read : text file with
    | ok source =>
      refine ⟨_, fun _ => problemReport file (parseBytes source).problems.length,
        .programOf file source, fun flags => ?_⟩
      simp only [run, read]
      rfl
    | error failure =>
      refine ⟨_, fun _ => ["could not read " ++ file, failure.message], .silence, fun flags => ?_⟩
      simp only [run, read]
      rfl

/-- The records of the opening. -/
def openingRecords (i : Invocation) : List Log.Record :=
  [⟨.trace, .program, "starting slb with args: " ++ renderInvocation i⟩,
    ⟨.debug, .program, "slb version: 0.0.0"⟩]

theorem opening_empty (i : Invocation) :
    opening i .empty = Transcript.empty.behind ((openingRecords i).map .log).toArray := rfl

/-- Where no trace is shown the opening does not tell the flags. -/
theorem flatMap_openingRecords {on : Log.Threshold → Entry → List UInt8} (channel : Channel on)
    {shown : Log.Threshold} (untraced : shown.shows .trace = false) (i j : Invocation) :
    ((openingRecords i).map .log).flatMap (on shown)
      = ((openingRecords j).map .log).flatMap (on shown) := by
  have first : ∀ message, on shown (.log ⟨.trace, .program, message⟩) = [] :=
    fun message => channel.hidden untraced
  simp only [openingRecords, List.map_cons, List.flatMap_cons, first]

section Flags

variable {less more : Flags} {command : Command}

/-- What a session shows, a more verbose one shows too. -/
theorem shows_of_lt (lt : less.verbosity < more.verbosity) (l : Log.Level)
    (h : (threshold ⟨less, command⟩).shows l = true) :
    (threshold ⟨more, command⟩).shows l = true := by
  rw [threshold, Log.shows_ofVerbosity] at h ⊢
  exact Int.le_trans h (Int.le_of_lt lt)

/-- Only the most verbose session shows traces. -/
theorem untraced_of_lt (lt : less.verbosity < more.verbosity) :
    (threshold ⟨less, command⟩).shows .trace = false := by
  have bound : more.verbosity ≤ 2 := by
    unfold Flags.verbosity
    omega
  rw [Bool.eq_false_iff, threshold, Ne, Log.shows_ofVerbosity]
  show ¬ (2 : Int) ≤ less.verbosity
  omega

end Flags

/--
**Verbosity decides which records are shown, and nothing else.** Of two sessions that carry out the
same command on the same files and the same input, one less verbose than the other, exit code, report
and all that is no record are the same. Each of the two streams of the less verbose session is the
stream of the other with those records deleted that are shown at its verbosity only, everything else
in the same order.
-/
theorem run_less_verbose (command : Command) (text : String → Except Failure (List UInt8))
    (input : List UInt8) {less more : Flags} (lt : less.verbosity < more.verbosity) :
    let quiet := run ⟨less, command⟩ text input
    let loud := run ⟨more, command⟩ text input
    let quietly := threshold ⟨less, command⟩
    let loudly := threshold ⟨more, command⟩
    let kept := loud.transcript.unrevealed quietly loudly
    quiet.exitCode = loud.exitCode ∧ quiet.report = loud.report
      ∧ quiet.transcript.spoken = loud.transcript.spoken
      ∧ quiet.transcript.outputStream quietly = kept.flatMap (onOutput loudly)
      ∧ quiet.transcript.errorStream quietly = kept.flatMap (onError loudly) := by
  intro quiet loud quietly loudly kept
  obtain ⟨f, report, speech, runs⟩ := exists_speech command text input
  have transcript : ∀ flags, (run ⟨flags, command⟩ text input).transcript
      = (f .empty).behind ((openingRecords ⟨flags, command⟩).map .log).toArray := by
    intro flags
    rw [runs, opening_empty, speech.behind]
  have reports : ∀ flags, (run ⟨flags, command⟩ text input).report
      = report (f .empty).failure := by
    intro flags
    rw [runs, opening_empty, speech.behind]
    rfl
  have report_eq : quiet.report = loud.report := (reports less).trans (reports more).symm
  have stream : ∀ {on}, Channel on →
      quiet.transcript.entries.toList.flatMap (on quietly) = kept.flatMap (on loudly) := by
    intro on channel
    rw [← channel.flatMap_eq (shows_of_lt lt)]
    show (run ⟨less, command⟩ text input).transcript.entries.toList.flatMap _
      = (run ⟨more, command⟩ text input).transcript.entries.toList.flatMap _
    rw [transcript, transcript, behind, behind, Array.toList_append, Array.toList_append,
      List.flatMap_append, List.flatMap_append,
      flatMap_openingRecords channel (untraced_of_lt lt) ⟨less, command⟩ ⟨more, command⟩]
  refine ⟨?_, report_eq, ?_, stream channel_onOutput, stream channel_onError⟩
  · rw [Outcome.exitCode, Outcome.exitCode, report_eq]
  · show (run ⟨less, command⟩ text input).transcript.spoken
      = (run ⟨more, command⟩ text input).transcript.spoken
    rw [transcript, transcript]
    simp [spoken, behind, openingRecords, Entry.isRecord]

/-- A file with a string that is not closed. The warning about it is shown by default and not with
`-q`, what leads to it only with `-vv`. -/
def unclosedFile : FileTable := .addFile "main" (Text.bytes "x \"a") .empty

theorem run_less_verbose_on_unclosedFile :
    Flags.verbosity ⟨0, 1⟩ < Flags.verbosity ⟨2, 0⟩
      ∧ let quiet := run ⟨⟨0, 1⟩, .tokens (some "main")⟩ unclosedFile.text []
        let loud := run ⟨⟨2, 0⟩, .tokens (some "main")⟩ unclosedFile.text []
        let quietly := threshold ⟨⟨0, 1⟩, .tokens (some "main")⟩
        let loudly := threshold ⟨⟨2, 0⟩, .tokens (some "main")⟩
        let kept := loud.transcript.unrevealed quietly loudly
        quiet.exitCode = loud.exitCode ∧ quiet.report = loud.report
          ∧ quiet.transcript.spoken = loud.transcript.spoken
          ∧ quiet.transcript.outputStream quietly = kept.flatMap (onOutput loudly)
          ∧ quiet.transcript.errorStream quietly = kept.flatMap (onError loudly) := by
  have lt : Flags.verbosity ⟨0, 1⟩ < Flags.verbosity ⟨2, 0⟩ := by decide
  exact ⟨lt, run_less_verbose (.tokens (some "main")) unclosedFile.text [] lt⟩

end Session

end Scriptlet
