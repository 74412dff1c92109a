import Scriptlet.Proofs.Transcript.Speech

/-!
# Limited room

A speech to a transcript with room for `n` bytes is compared with the same speech to one without a
limit. As long as all output fits, the two transcripts are the same but for the room. From the write
on that does not fit the limited one has taken the first `n` bytes and stays as it is, whatever is
said to it: later output, and also a reason to give up that comes later, make no difference any more.

`Cut` is this relation. The four single steps keep it, so every speech does (`Speech.cut`), and in
the end it tells what was put out and what came of the run (`outcome_limited`).
-/

namespace Scriptlet

namespace Transcript

/-- What a transcript with room for `n` bytes has become where one without a limit has become
`whole`. -/
inductive Cut (n : Nat) (whole : Transcript) : Transcript → Prop where
  | fits (unlimited : whole.room = none) (le : whole.output.length ≤ n) :
    Cut n whole { whole with room := some (n - whole.output.length) }
  | full {limited : Transcript} (unlimited : whole.room = none) (lt : n < whole.output.length)
    (output : limited.output = whole.output.take n) (failure : limited.failure = some .full) :
    Cut n whole limited

variable {n : Nat} {whole limited : Transcript}

theorem output_add (e : Entry) (t : Transcript) : (t.add e).output = t.output ++ ownOutput e := by
  simp [output, add]

theorem cut_empty (n : Nat) : Cut n .empty (.limited n) := .fits rfl (Nat.zero_le n)

/-- A full transcript stays as it is, and its output the first bytes of the whole. -/
theorem Cut.stays {more : List UInt8} {later : Transcript} (unlimited : later.room = none)
    (lt : n < whole.output.length) (output : limited.output = whole.output.take n)
    (failure : limited.failure = some .full) (added : later.output = whole.output ++ more) :
    Cut n later limited := by
  refine .full unlimited ?_ ?_ failure
  · rw [added, List.length_append]
    omega
  · rw [added, List.take_append_of_le_length (Nat.le_of_lt lt), output]

/-- What is no output is taken by both transcripts, or by none. -/
theorem Cut.taken (h : Cut n whole limited) {e : Entry} (silent : ownOutput e = []) :
    Cut n (if whole.failure.isSome then whole else whole.add e)
      (if limited.failure.isSome then limited else limited.add e) := by
  have same : (whole.add e).output = whole.output := by
    rw [output_add, silent, List.append_nil]
  cases h with
  | fits unlimited le =>
    show Cut n _ (if whole.failure.isSome then _ else _)
    split
    · exact .fits unlimited le
    · have later : Cut n (whole.add e) _ := .fits unlimited (by rw [same]; exact le)
      rw [same] at later
      exact later
  | full unlimited lt output failure =>
    have ignored : (if limited.failure.isSome then limited else limited.add e) = limited :=
      if_pos (by rw [failure]; rfl)
    rw [ignored]
    split
    · exact .full unlimited lt output failure
    · exact stays unlimited lt output failure (same.trans (List.append_nil _).symm)

/-- Output is taken as far as it fits. -/
theorem Cut.write (h : Cut n whole limited) (written : List UInt8) :
    Cut n (whole.write written) (limited.write written) := by
  cases h with
  | fits unlimited le =>
    unfold Transcript.write
    show Cut n (if whole.failure.isSome then _ else _) (if whole.failure.isSome then _ else _)
    by_cases failed : whole.failure.isSome
    · rw [if_pos failed, if_pos failed]
      exact .fits unlimited le
    · rw [if_neg failed, if_neg failed, unlimited]
      have added := output_add (.out written) whole
      have length : (whole.add (.out written)).output.length
          = whole.output.length + written.length := by
        rw [added, List.length_append]
        rfl
      dsimp only
      split
      · next fitting =>
        have later : Cut n (whole.add (.out written)) _ := .fits unlimited (by omega)
        rw [length, ← Nat.sub_sub] at later
        rw [List.take_of_length_le fitting]
        exact later
      · next short =>
        refine .full unlimited (by omega) ?_ ?_
        · rw [added, List.take_append, List.take_of_length_le le]
          exact output_add (.out (written.take (n - whole.output.length))) whole
        · show whole.failure.or (some .full) = some .full
          rw [Option.not_isSome_iff_eq_none.mp failed]
          rfl
  | full unlimited lt output failure =>
    have ignored : limited.write written = limited := by
      unfold Transcript.write
      rw [if_pos (by rw [failure]; rfl)]
    rw [ignored]
    unfold Transcript.write
    split
    · exact .full unlimited lt output failure
    · rw [unlimited]
      exact stays unlimited lt output failure (output_add (.out written) whole)

/-- The first reason to give up counts, and room was wanting before. -/
theorem Cut.fail (h : Cut n whole limited) (f : Failure) :
    Cut n (whole.fail f) (limited.fail f) := by
  cases h with
  | fits unlimited le => exact .fits unlimited le
  | full unlimited lt output failure =>
    refine .full unlimited lt output ?_
    show limited.failure.or (some f) = some .full
    rw [failure]
    rfl

/-- **A speech to a limited transcript is cut where its room ends.** -/
theorem Speech.cut {f : Transcript → Transcript} (speech : Speech f) :
    ∀ {whole limited : Transcript}, Cut n whole limited → Cut n (f whole) (f limited) := by
  induction speech with
  | silence => exact fun h => h
  | write written => exact fun h => h.write written
  | complain text => exact fun h => h.taken rfl
  | note r => exact fun h => h.taken rfl
  | fail f => exact fun h => h.fail f
  | andThen _ _ first second => exact fun h => second (first h)

/-! ## What comes of a run -/

/-- The bytes put out, and what is handed back: `a` unless the transcript has failed. -/
def outcome {α : Type} (t : Transcript) (a : α) : List UInt8 × Except Failure α :=
  (t.output, match t.failure with
    | none => .ok a
    | some f => .error f)

/-- What comes of a run if there is room for `n` bytes, from what comes of it without a limit. -/
theorem Cut.outcome_eq {α : Type} (h : Cut n whole limited) (a : α) :
    limited.outcome a = if whole.output.length ≤ n then whole.outcome a
      else (whole.output.take n, .error .full) := by
  cases h with
  | fits _ le =>
    rw [if_pos le]
    rfl
  | full _ lt output failure =>
    rw [if_neg (Nat.not_le_of_lt lt), outcome, output, failure]

end Transcript

/-- What comes of listing the tokens of a source: output, and the defects. -/
def listingOutcome (source : List UInt8) (t : Transcript) :
    List UInt8 × Except Failure (List Defect) :=
  (listTokens source t).2.outcome (listTokens source t).1

/-- What comes of a run of the prompt. -/
def Prompt.outcome (input : List UInt8) (t : Transcript) : List UInt8 × Except Failure Unit :=
  (run input t).outcome ()

/--
**Limited room cuts the output off, and nothing else.** With room for `n` bytes the listing of a
text, and the prompt on any input, come to the same output and the same result as without a limit if
that output has at most `n` bytes. Otherwise the output is the first `n` bytes of it, and the result
is that there is no room, also where the input turns out to be no text later on.
-/
theorem outcome_limited (n : Nat) :
    (∀ text : String,
      let whole := listingOutcome (Text.bytes text) .empty
      listingOutcome (Text.bytes text) (.limited n)
        = if whole.1.length ≤ n then whole else (whole.1.take n, .error .full))
    ∧ ∀ input : List UInt8,
      let whole := Prompt.outcome input .empty
      Prompt.outcome input (.limited n)
        = if whole.1.length ≤ n then whole else (whole.1.take n, .error .full) := by
  constructor
  · intro text
    have cut := (Transcript.Speech.listTokens (Text.bytes text)).cut (Transcript.cut_empty n)
    exact cut.outcome_eq (Cursor.ofText text).drain.2.defects
  · intro input
    have cut := (Transcript.Speech.run input).cut (Transcript.cut_empty n)
    exact cut.outcome_eq ()

/-- With three bytes of room the prompt comes to the line that is no text, and with two it does
not. -/
example : (Prompt.run [255] (.limited 3)).failure = some .invalidText
    ∧ (Prompt.run [255] (.limited 2)).failure = some .full := by
  decide +kernel

end Scriptlet
