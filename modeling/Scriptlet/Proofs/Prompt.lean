import Scriptlet.Prompt
import Scriptlet.Proofs.Token.Index
import Scriptlet.Proofs.Token.Lines

/-!
# The prompt and the listing

The prompt reads one line after the other and lists the tokens of each. Where no string goes on
behind its line, it lists what is listed for the whole input at once, but for the lines it shows
before it reads (`run_agrees_with_listTokens`).

A token is shown on one line, which is never the line of the prompt, so the lines of the output tell
which is which. `Says` is what is known of one part of a run: the lines put out and the number of
warnings.
-/

namespace Scriptlet

open Text

/-! ## Shown tokens -/

/-- The line that a token is shown on. -/
def Token.line (t : Token) : List UInt8 := bytes t.render

/-- A token is shown on one line. -/
theorem Token.newline_not_mem_line (t : Token) : newline ∉ t.line := by
  have name : ∀ k : Kind, '\n' ∉ k.name.toList := by
    intro k
    cases k <;> decide
  refine not_mem_bytes (by decide) ?_
  rw [render]
  simp only [String.toList_append, List.mem_append]
  rintro (((h | h) | h) | h)
  · exact name t.kind h
  · exact absurd h (by decide)
  · exact newline_not_mem_quote t.literal h
  · exact absurd h (by decide)

/-- There is a parenthesis on the line of a token, and none on the line of the prompt. -/
theorem Token.line_ne_sign (t : Token) : t.line ≠ bytes Prompt.sign := by
  intro h
  have parenthesis : '(' ∈ t.render.toList := by
    rw [render]
    simp
  rw [bytes_injective h] at parenthesis
  exact absurd parenthesis (by decide)

/-! ## What is said -/

namespace Transcript

/-- Whether the entry is a warning. -/
def isWarning : Entry → Bool
  | .log r => r.level == .warn
  | .out _ | .err _ => false

/-- How many warnings were given. -/
def warnings (t : Transcript) : Nat := t.entries.toList.countP isWarning

/-- The transcript takes all that is said. -/
structure Open (t : Transcript) : Prop where
  room : t.room = none
  failure : t.failure = none

/-- Such a transcript takes one more entry. -/
theorem Open.add {t : Transcript} (h : t.Open) (e : Entry) : (t.add e).Open := ⟨h.room, h.failure⟩

theorem Open.print_eq {t : Transcript} (h : t.Open) (text : String) :
    t.print text = t.add (.out (bytes text)) := by
  rw [print, write, h.failure, h.room]
  rfl

theorem Open.note_eq {t : Transcript} (h : t.Open) (r : Log.Record) :
    t.note r = t.add (.log r) := by
  rw [note, h.failure]
  rfl

/-- From `t` to `t'` the lines `written` were put out, and `warned` warnings were given. -/
structure Says (t t' : Transcript) (written : List (List UInt8)) (warned : Nat) : Prop where
  isOpen : t'.Open
  output : t'.output = t.output ++ unsplit newline written
  warnings : t'.warnings = t.warnings + warned

variable {t t' t'' : Transcript}

theorem open_empty : empty.Open := ⟨rfl, rfl⟩

theorem output_empty : empty.output = [] := rfl

theorem warnings_empty : empty.warnings = 0 := rfl

theorem Says.refl (h : t.Open) : Says t t [] 0 := ⟨h, (List.append_nil _).symm, rfl⟩

theorem Says.trans {written written' : List (List UInt8)} {warned warned' : Nat}
    (h : Says t t' written warned) (h' : Says t' t'' written' warned') :
    Says t t'' (written ++ written') (warned + warned') := by
  refine ⟨h'.isOpen, ?_, ?_⟩
  · rw [h'.output, h.output, unsplit_append, List.append_assoc]
  · rw [h'.warnings, h.warnings, Nat.add_assoc]

theorem says_print (h : t.Open) (text : String) :
    Says t (t.print (text ++ "\n")) [bytes text] 0 := by
  have line : bytes (text ++ "\n") = bytes text ++ [newline] := bytes_append text "\n"
  rw [h.print_eq, line]
  refine ⟨h.add _, ?_, ?_⟩
  · simp [output, add, ownOutput]
  · simp [warnings, add, isWarning]

theorem says_note (h : t.Open) (r : Log.Record) :
    Says t (t.note r) [] (if r.level = .warn then 1 else 0) := by
  rw [h.note_eq]
  refine ⟨h.add _, ?_, ?_⟩
  · simp [output, add, ownOutput, unsplit]
  · simp [warnings, add, isWarning, List.countP_singleton]

/-- A record of another level is no warning. -/
theorem says_quietly (h : t.Open) {r : Log.Record} (quiet : r.level ≠ .warn) :
    Says t (t.note r) [] 0 := by
  have noted := says_note h r
  rwa [if_neg quiet] at noted

/-! ## Listing -/

theorem says_tokens (tokens : List Token) : ∀ {t : Transcript}, t.Open →
    Says t (tokens.foldl (fun t token =>
      (t.noteEvent (.lexed token)).print (token.render ++ "\n")) t) (tokens.map Token.line) 0 := by
  induction tokens with
  | nil => exact fun h => .refl h
  | cons token tokens ih =>
    intro t h
    have noted := says_quietly h (r := (Event.lexed token).record) nofun
    have printed := noted.trans (says_print noted.isOpen token.render)
    exact printed.trans (ih printed.isOpen)

/-- **What is listed of a source**, and which defects are handed back. -/
theorem says_listTokens (h : t.Open) (source : List UInt8) :
    Says t (listTokens source t).2 ((Cursor.ofBytes source).remaining.map Token.line) 0
      ∧ (listTokens source t).1 = (Cursor.ofBytes source).items.flatMap Cursor.Item.defects := by
  have listed := says_tokens (Cursor.ofBytes source).remaining h
  have noted := listed.trans (says_quietly listed.isOpen
    (r := (Event.lexed (.eof ⟨(Cursor.ofBytes source).drain.2.stop, 0⟩)).record) nofun)
  rw [List.append_nil] at noted
  exact ⟨noted, Cursor.defects_drain _⟩

end Transcript

namespace Prompt

open Transcript

variable {t : Transcript}

/-! ## The prompt -/

theorem says_warn (origin : Log.Origin) (defects : List Defect) : ∀ {t : Transcript}, t.Open →
    Says t (warn origin defects t) [] defects.length := by
  induction defects with
  | nil => exact fun h => .refl h
  | cons d defects ih =>
    intro t h
    have noted := says_note h ⟨.warn, origin, d.message⟩
    have later := noted.trans (ih noted.isOpen)
    rwa [if_pos rfl, Nat.add_comm] at later

/-- The defects of the tokens in a source. -/
def defectsOf (source : List UInt8) : List Defect :=
  (Cursor.ofBytes source).items.flatMap Cursor.Item.defects

/-- The lines that are put out for a line of the input. -/
def shown (line : List UInt8) : List (List UInt8) :=
  bytes sign :: (Cursor.ofBytes line).remaining.map Token.line

theorem says_answer (h : t.Open) (text : String) :
    Says t (answer (bytes text) (ask t)) (shown (bytes text)) (defectsOf (bytes text)).length := by
  have asked := says_print h sign
  obtain ⟨listed, defects⟩ := says_listTokens asked.isOpen (bytes text)
  have isText : ensureText (bytes text) = .ok (bytes text) := by
    rw [ensureText, decode?_bytes]
    rfl
  have warned := listed.trans (says_warn .prompt (defectsOf (bytes text)) listed.isOpen)
  have said := asked.trans warned
  rw [List.append_nil, Nat.zero_add, Nat.zero_add] at said
  rw [answer, isText, ask]
  dsimp only
  rw [defects]
  exact said

theorem says_answers (lines : List (List UInt8)) :
    (∀ line ∈ lines, ∃ text, line = bytes text) → ∀ {t : Transcript}, t.Open →
      Says t (lines.foldl (fun t line => answer line (ask t)) t) (lines.flatMap shown)
        (lines.flatMap defectsOf).length := by
  induction lines with
  | nil => exact fun _ _ h => .refl h
  | cons line lines ih =>
    intro isText t h
    obtain ⟨text, rfl⟩ := isText line List.mem_cons_self
    have first := says_answer h text
    have later := ih (fun line hl => isText line (List.mem_cons_of_mem _ hl)) first.isOpen
    rw [List.foldl_cons, List.flatMap_cons, List.flatMap_cons, List.length_append]
    exact first.trans later

/-- **What the prompt says** to an input. -/
theorem says_run (h : t.Open) (text : String) : Says t (run (bytes text) t)
    ((lines (bytes text)).flatMap shown ++ [bytes sign])
    ((lines (bytes text)).flatMap defectsOf).length := by
  have answered := says_answers (lines (bytes text)) (exists_text_of_mem_lines text) h
  have asked := answered.trans (says_print answered.isOpen sign)
  have closed := asked.trans (says_quietly asked.isOpen
    (r := ⟨.debug, .prompt, "input closed, leaving prompt"⟩) nofun)
  rwa [List.append_nil, Nat.add_zero] at closed

/-! ## The lines of the prompt -/

/-- The output without the lines that the prompt shows before it reads. -/
def withoutSigns (output : List UInt8) : List UInt8 :=
  [newline].intercalate ((split newline output).filter (· ≠ bytes sign))

theorem newline_not_mem_shown (line : List UInt8) : ∀ piece ∈ shown line, newline ∉ piece := by
  rw [shown, List.forall_mem_cons, List.forall_mem_map]
  exact ⟨by decide, fun token _ => token.newline_not_mem_line⟩

theorem filter_shown (line : List UInt8) : (shown line).filter (· ≠ bytes sign)
    = (Cursor.ofBytes line).remaining.map Token.line := by
  rw [shown, List.filter_cons_of_neg (by simp), List.filter_eq_self]
  intro piece hp
  obtain ⟨token, -, rfl⟩ := List.mem_map.mp hp
  exact decide_eq_true token.line_ne_sign

theorem count_shown (line : List UInt8) : (shown line).count (bytes sign) = 1 := by
  rw [shown, List.count_cons_self, List.count_eq_zero_of_not_mem]
  intro hm
  obtain ⟨token, -, same⟩ := List.mem_map.mp hm
  exact token.line_ne_sign same

/-- The pieces of the output are the lines put out, and behind the last newline is nothing. -/
theorem split_output_run (text : String) : split newline (run (bytes text) .empty).output
    = (lines (bytes text)).flatMap shown ++ [bytes sign] ++ [[]] := by
  have said := (says_run open_empty text).output
  rw [output_empty, List.nil_append] at said
  rw [said]
  refine split_unsplit ?_
  rw [List.forall_mem_append, List.forall_mem_flatMap, List.forall_mem_singleton]
  exact ⟨fun line _ => newline_not_mem_shown line, by decide⟩

/-- Without the lines of the prompt there are those of the tokens. -/
theorem withoutSigns_output_run (text : String) : withoutSigns (run (bytes text) .empty).output
    = unsplit newline ((lines (bytes text)).flatMap fun line =>
        (Cursor.ofBytes line).remaining.map Token.line) := by
  have own : [bytes sign].filter (· ≠ bytes sign) = [] := by simp
  have last : [([] : List UInt8)].filter (· ≠ bytes sign) = [[]] := by decide
  rw [withoutSigns, split_output_run, List.filter_append, List.filter_append, List.filter_flatMap,
    own, last, List.append_nil, intercalate_concat_nil]
  simp only [filter_shown]

theorem count_output_run (text : String) :
    (split newline (run (bytes text) .empty).output).count (bytes sign)
      = (lines (bytes text)).length + 1 := by
  have once : List.count (bytes sign) ∘ shown = fun _ => 1 := funext count_shown
  have last : [([] : List UInt8)].count (bytes sign) = 0 := by decide
  rw [split_output_run, List.count_append, List.count_append, List.count_flatMap, once, last,
    List.map_const', List.sum_replicate_nat, Nat.mul_one, List.count_singleton_self]

/-! ## Lines and the whole -/

/-- The tokens of a text are shown on the lines of the tokens of its lines. -/
theorem lines_remaining {text : String} (inLine : InLine (Cursor.ofText text).items) :
    (Cursor.ofText text).remaining.map Token.line = (lines (bytes text)).flatMap fun line =>
      (Cursor.ofBytes line).remaining.map Token.line := by
  have unplaced : ∀ c : Cursor, c.remaining.map Token.line
      = (c.items.map Cursor.Item.unplaced).map fun i => i.token.line := by
    intro c
    rw [Cursor.remaining_eq, List.map_map, List.map_map]
    rfl
  simp only [unplaced, items_lines text inLine, List.map_flatMap]

/-- There are as many defects in a text as in its lines. -/
theorem length_defectsOf {text : String} (inLine : InLine (Cursor.ofText text).items) :
    (defectsOf (bytes text)).length = ((lines (bytes text)).flatMap defectsOf).length := by
  have unplaced : ∀ source, (defectsOf source).length
      = (((Cursor.ofBytes source).items.map Cursor.Item.unplaced).flatMap
        Cursor.Item.defects).length := by
    intro source
    rw [defectsOf, List.length_flatMap, List.length_flatMap, List.map_map]
    congr 1
    refine List.map_congr_left fun i _ => ?_
    simp [Cursor.Item.unplaced, Cursor.Item.respan]
  have lines : (Cursor.ofBytes (bytes text)).items.map Cursor.Item.unplaced = _ :=
    items_lines text inLine
  rw [unplaced, lines, List.flatMap_assoc, List.length_flatMap, List.length_flatMap]
  simp only [unplaced]

/-- Strings that cover no newline have none in their text. -/
theorem inLine_of_slices {text : String}
    (h : ∀ t ∈ tokens text, t.kind = .string → newline ∉ t.span.slice (bytes text)) :
    InLine (Cursor.ofText text).items := by
  intro i hi hk hm
  have ht := mem_tokens_of_mem hi
  have spells := ((tiles_tokens text).spells_slice [] rfl i.token ht).2.2
  rw [hk, List.nil_append] at spells
  refine h i.token ht hk ?_
  obtain ⟨-, same | ⟨same, -⟩⟩ := spells
  · rw [same]
    exact List.mem_cons_of_mem _ (List.mem_append_left _ hm)
  · rw [same]
    exact List.mem_cons_of_mem _ hm

/--
**The prompt lists what is listed of the whole input.** If no string covers a newline, then the
output of the prompt is that of the listing, byte for byte, but for one line more for each line of
the input and one at the end, and it warns as often as the listing hands back a defect. Neither
fails.
-/
theorem run_agrees_with_listTokens (text : String)
    (inLine : ∀ t ∈ tokens text, t.kind = .string → newline ∉ t.span.slice (bytes text)) :
    let prompted := run (bytes text) .empty
    let listed := listTokens (bytes text) .empty
    withoutSigns prompted.output = listed.2.output
      ∧ (split newline prompted.output).count (bytes sign) = (lines (bytes text)).length + 1
      ∧ prompted.warnings = listed.1.length
      ∧ prompted.failure = none ∧ listed.2.failure = none := by
  intro prompted listed
  have inLine := inLine_of_slices inLine
  have prompt := says_run open_empty text
  obtain ⟨listing, defects⟩ := says_listTokens open_empty (bytes text)
  have listedOutput : listed.2.output
      = unsplit newline ((Cursor.ofText text).remaining.map Token.line) := by
    have said := listing.output
    rwa [output_empty, List.nil_append] at said
  refine ⟨?_, count_output_run text, ?_, prompt.isOpen.failure, listing.isOpen.failure⟩
  · rw [withoutSigns_output_run, listedOutput, lines_remaining inLine]
  · rw [prompt.warnings, defects, warnings_empty, Nat.zero_add]
    exact (length_defectsOf inLine).symm

/-- The first line ends in a comment with a quote in it and in both bytes of a line end, the second
begins with a carriage return, and the last is not ended and neither is its string. -/
def openLastLine : String := "x // \"\r\n\r\"a\" é\n\"b"

theorem run_agrees_on_openLastLine :
    (∀ t ∈ tokens openLastLine, t.kind = .string →
        newline ∉ t.span.slice (bytes openLastLine))
      ∧ let prompted := run (bytes openLastLine) .empty
        let listed := listTokens (bytes openLastLine) .empty
        withoutSigns prompted.output = listed.2.output
          ∧ (split newline prompted.output).count (bytes sign)
            = (lines (bytes openLastLine)).length + 1
          ∧ prompted.warnings = listed.1.length
          ∧ prompted.failure = none ∧ listed.2.failure = none := by
  have inLine : ∀ t ∈ tokens openLastLine, t.kind = .string →
      newline ∉ t.span.slice (bytes openLastLine) := by
    decide +kernel
  exact ⟨inLine, run_agrees_with_listTokens openLastLine inLine⟩

end Prompt

end Scriptlet
