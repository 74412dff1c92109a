import Scriptlet.Proofs.Prompt
import Scriptlet.Proofs.Transcript.Speech

/-!
# Inputs that are no text

The prompt looks at its input line by line and stops at a line that is no text. That there is such a
line is the same as that the input is no text: a newline is ASCII, so it never stands inside of a
character, and neither does the carriage return that is dropped (`decode?_append_cons_eq_none_iff`,
`decode?_dropReturn`).

`FirstFault` cuts an input in front of that line. Up to there the prompt does what it does for the
front alone, and has failed when it has asked once more (`FirstFault.run_eq`). Whatever is said later
is not taken any more (`Speech.stays`), so neither the line nor what follows it is found in the
output (`run_until_fault`).
-/

namespace Scriptlet.Prompt

open Text Transcript

/-- The lines of `before` are texts, and in the input a line follows them that is none. -/
inductive FirstFault : List UInt8 → List UInt8 → Prop where
  | here {line rest : List UInt8} (free : newline ∉ line) (noText : decode? line = none)
      (ends : ∀ b ∈ rest.head?, b = newline) : FirstFault [] (line ++ rest)
  | later {line before rest : List UInt8} (free : newline ∉ line) (isText : decode? line ≠ none)
      (more : FirstFault before rest) :
      FirstFault (line ++ newline :: before) (line ++ newline :: rest)

/-! ## The first fault -/

/-- **An input that is no text has a first line that is none.** -/
theorem exists_firstFault (input : List UInt8) :
    decode? input = none → ∃ before, FirstFault before input := by
  induction input using pieces_induction with
  | last piece free =>
    intro noText
    have fault : FirstFault [] (piece ++ []) := .here free noText nofun
    rw [List.append_nil] at fault
    exact ⟨[], fault⟩
  | line piece rest free ih =>
    intro noText
    by_cases own : decode? piece = none
    · exact ⟨[], .here free own (by simp)⟩
    · have later := (decode?_append_cons_eq_none_iff (by decide)).mp noText
      obtain ⟨before, fault⟩ := ih (later.resolve_left own)
      exact ⟨_, .later free own fault⟩

namespace FirstFault

variable {before input : List UInt8}

/-- What stands before the fault is a text. -/
theorem isText (h : FirstFault before input) : decode? before ≠ none := by
  induction h with
  | here => decide
  | later _ isText _ ih =>
    rw [ne_eq, decode?_append_cons_eq_none_iff (by decide)]
    exact not_or.mpr ⟨isText, ih⟩

/-- What goes on with the fault is none. -/
theorem noText (h : FirstFault before input) : decode? input = none := by
  induction h with
  | @here line rest _ noText ends =>
    cases rest with
    | nil => rwa [List.append_nil]
    | cons b rest =>
      obtain rfl := ends b rfl
      exact (decode?_append_cons_eq_none_iff (by decide)).mpr (.inl noText)
  | later _ _ _ ih => exact (decode?_append_cons_eq_none_iff (by decide)).mpr (.inr ih)

/-- The lines of an input begin with those before the fault, and then there is one that is no
text. -/
theorem exists_lines (h : FirstFault before input) : ∃ line more,
    lines input = lines before ++ line :: more ∧ decode? line = none := by
  induction h with
  | @here line rest free noText ends =>
    cases rest with
    | nil =>
      have filled : line ≠ [] := by
        rintro rfl
        exact absurd noText (by decide)
      rw [List.append_nil, lines_of_free free, if_neg filled]
      exact ⟨line, [], rfl, noText⟩
    | cons b rest =>
      obtain rfl := ends b rfl
      rw [lines_append free]
      exact ⟨_, _, rfl, (decode?_dropReturn line).mpr noText⟩
  | later free _ _ ih =>
    obtain ⟨line, more, same, noText⟩ := ih
    rw [lines_append free, lines_append free, same]
    exact ⟨line, more, rfl, noText⟩

end FirstFault

/-! ## The run -/

/-- All lines of an input answered, and one line more asked for. -/
def asked (input : List UInt8) (t : Transcript) : Transcript :=
  ask ((lines input).foldl (fun t line => answer line (ask t)) t)

/-- An input that is a text is read to its end. -/
theorem isOpen_asked {input : List UInt8} (isText : decode? input ≠ none) :
    (asked input .empty).Open := by
  obtain ⟨text, rfl⟩ := exists_text_of_decode isText
  have answered := says_answers (lines (bytes text)) (exists_text_of_mem_lines text) open_empty
  exact (says_print answered.isOpen sign).isOpen

/-- When the input is closed nothing is put out, and the prompt does not fail. -/
theorem close_of_open {t : Transcript} (h : t.Open) :
    (close t).output = t.output ∧ (close t).failure = none := by
  have noted := says_quietly h (r := ⟨.debug, .prompt, "input closed, leaving prompt"⟩) nofun
  exact ⟨noted.output.trans (List.append_nil _), noted.isOpen.failure⟩

theorem answer_of_noText {line : List UInt8} (noText : decode? line = none) (t : Transcript) :
    answer line t = t.fail .invalidText := by
  rw [answer, ensureText, noText]
  rfl

/-- **A run up to a fault** has asked for the line that is no text, and has failed. -/
theorem FirstFault.run_eq {before input : List UInt8} (h : FirstFault before input)
    (t : Transcript) : run input t = (asked before t).fail .invalidText := by
  obtain ⟨line, more, same, noText⟩ := h.exists_lines
  have failed : ((asked before t).fail .invalidText).failure.isSome := by simp [fail]
  rw [run, same, List.foldl_append, List.foldl_cons, answer_of_noText noText]
  -- nothing is said to the lines behind, and the input is not closed
  rw [← asked, (Speech.answers more).stays failed, Speech.ask.stays failed,
    Speech.close.stays failed]

/-- A run fails if its input is no text, and for no other reason. -/
theorem failure_run (input : List UInt8) : (run input .empty).failure
    = if decode? input = none then some .invalidText else none := by
  split
  · next noText =>
    obtain ⟨before, fault⟩ := exists_firstFault input noText
    rw [fault.run_eq, fail, (isOpen_asked fault.isText).failure]
    rfl
  · next isText => exact (close_of_open (isOpen_asked isText)).2

/--
**The prompt fails exactly if its input is no text, and says what it says to the lines before.** If
the input is a text then the prompt does not fail. Otherwise there is a first line that is no text,
and the output is the same as if the input was closed in front of it, in which case the prompt does
not fail.
-/
theorem run_until_fault (input : List UInt8) :
    ((run input .empty).failure = some .invalidText ↔ decode? input = none)
      ∧ ((run input .empty).failure = none ↔ decode? input ≠ none)
      ∧ (decode? input = none → ∃ before, FirstFault before input)
      ∧ ∀ before, FirstFault before input →
        (run input .empty).output = (run before .empty).output
          ∧ (run before .empty).failure = none := by
  rw [failure_run]
  refine ⟨by simp, by simp, exists_firstFault input, fun before fault => ?_⟩
  obtain ⟨output, closed⟩ := close_of_open (isOpen_asked fault.isText)
  rw [fault.run_eq]
  exact ⟨output.symm, closed⟩

/-- A text on a line of its own, and then a string with a character of two bytes in it that has a
newline between them. Either piece of it is no text. -/
def cutCharacter : List UInt8 :=
  bytes "x\r" ++ newline :: ([Lexeme.quoteMark, 0xC3] ++ newline :: [0xA9, Lexeme.quoteMark, 49])

theorem run_until_fault_of_cutCharacter :
    FirstFault (bytes "x\r" ++ newline :: []) cutCharacter
      ∧ (run cutCharacter .empty).failure = some .invalidText
      ∧ (run cutCharacter .empty).output = (run (bytes "x\r" ++ newline :: []) .empty).output := by
  have fault : FirstFault (bytes "x\r" ++ newline :: []) cutCharacter :=
    .later (by decide) (by decide) (.here (by decide) (by decide) (by simp))
  obtain ⟨fails, -, -, stops⟩ := run_until_fault cutCharacter
  exact ⟨fault, fails.mpr fault.noText, (stops _ fault).1⟩

end Scriptlet.Prompt
