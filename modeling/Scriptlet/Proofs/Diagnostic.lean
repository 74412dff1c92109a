import Mathlib.Order.Interval.Finset.Nat
import Scriptlet.Diagnostic
import Scriptlet.Proofs.Parse.Blame
import Scriptlet.Proofs.Span.SourceLine
import Scriptlet.Proofs.Token.LongestMatch

/-!
# What a diagnostic shows

A diagnostic of a problem names the place where the problem begins, shows that line and marks all
bytes of the problem that are on it, and no others (`render_of_problem`).

Three numbers have to fit together: the column, counted from the last newline, the length of the
line, which is shown without the carriage returns at its end, and the length of the problem, which
may go on over several lines. For any span the marks are as many as it has bytes on the row, and one
if it has none there (`Diagnostic.points_of_le`). A token begins with a byte that is no blank, so
neither with a newline nor with a carriage return at the end of a line, and its first byte is on the
row (`Span.OnLine.column_lt`). Only the end of the source has no byte there.
-/

namespace Scriptlet

open Text

/-! ## Marks -/

/-- The number of bytes that a span has among the `length` bytes from `start` on. -/
def Span.overlap (s : Span) (start length : Nat) : Nat :=
  (Finset.Ico s.offset s.stop ∩ Finset.Ico start (start + length)).card

namespace Span

theorem overlap_eq (s : Span) (start column length : Nat) (place : s.offset = start + column) :
    s.overlap start length = min s.length (length - column) := by
  unfold overlap stop
  rw [Finset.Ico_inter_Ico, Nat.card_Ico]
  omega

variable {s : Span} {text before own behind : String}

/-- A span that begins with a byte other than a newline or a carriage return begins on the row that
is shown for it. -/
theorem OnLine.column_lt (h : s.OnLine text before own behind) {b : UInt8}
    (first : (bytes text)[s.offset]? = some b) (noNewline : b ≠ newline)
    (noReturn : b ≠ carriageReturn) :
    s.column (bytes text) < (bytes (s.sourceLine (bytes text))).length := by
  obtain ⟨n, -, line, -⟩ := h.exists_returns
  have inside : s.offset < (bytes text).length := (List.getElem?_eq_some_iff.mp first).1
  have place := h.place
  rw [Nat.min_eq_left (Nat.le_of_lt inside)] at place
  have within := h.within
  rw [h.stored, place, List.append_assoc, List.getElem?_append_right (Nat.le_add_right _ _),
    Nat.add_sub_cancel_left] at first
  by_contra past
  rcases Nat.eq_or_lt_of_le within with atEnd | onLine
  · -- the span would begin with the newline behind the line
    rw [atEnd, List.getElem?_append_right (Nat.le_refl _), Nat.sub_self,
      ← List.head?_eq_getElem?] at first
    exact noNewline (h.ends b first)
  · -- the span would begin with one of the carriage returns that are not shown
    rw [List.getElem?_append_left onLine, line,
      List.getElem?_append_right (Nat.le_of_not_lt past)] at first
    exact noReturn (List.eq_of_mem_replicate (List.mem_of_getElem? first))

/-- A span with a newline in it goes on behind its line. -/
theorem OnLine.length_lt (h : s.OnLine text before own behind)
    (inside : s.offset ≤ (bytes text).length) (broken : newline ∈ s.slice (bytes text)) :
    (bytes own).length < s.column (bytes text) + s.length := by
  have place := h.place
  have within := h.within
  rw [Nat.min_eq_left inside] at place
  by_contra short
  have drop : (bytes text).drop (bytes before).length = bytes own ++ bytes behind := by
    rw [h.stored, List.append_assoc, List.drop_left]
  have slice : s.slice (bytes text) = ((bytes own).drop (s.column (bytes text))).take s.length := by
    rw [Span.slice, place, ← List.drop_drop, drop, List.drop_append_of_le_length within,
      List.take_append_of_le_length (by rw [List.length_drop]; omega)]
  rw [slice] at broken
  exact h.free (List.mem_of_mem_drop (List.mem_of_mem_take broken))

end Span

namespace Diagnostic

/-- What the rows of a diagnostic have to show of a span of a text. -/
structure Points (text : String) (s : Span) (number column : Nat) (shown : String) (marks : Nat) :
    Prop where
  /-- The line with the number, counted from one, is shown, up to carriage returns at its end, and
  the column is one of the line or its end. -/
  line : ∃ n, (split '\n' text.toList)[number - 1]? = some (shown.toList ++ List.replicate n '\r')
    ∧ column ≤ (bytes shown).length + n
  numbered : 1 ≤ number
  trimmed : shown.toList.getLast? ≠ some '\r'
  /-- The span begins in the column of the line. -/
  place : Span.offsetOf (bytes text) number column = s.offset
  /-- The bytes that the span has on the row are marked, and one place if there is none. -/
  marks : marks = max 1 (s.overlap (Span.offsetOf (bytes text) number 0) (bytes shown).length)

variable {text : String} {p : Problem}

/-- The bounds for the number of marks are in order, and whatever is computed on the way is there. -/
theorem render?_eq (path text : String) (p : Problem) :
    render? ⟨path, bytes text, p⟩ = .ok (render ⟨path, bytes text, p⟩) := by
  obtain ⟨before, own, behind, onLine⟩ := p.span.exists_onLine text
  have inOrder : ∀ low n, Fault.clamp? 1 (max 1 low) n = .ok (max 1 (min (max 1 low) n)) := by
    intro low n
    rw [Fault.clamp?, if_pos (Nat.le_max_left 1 low)]
  unfold render?
  simp only [p.span.place?_eq, onLine.sourceLine?_eq]
  show Fault.clamp? _ _ _ >>= _ = _
  rw [inOrder, Nat.min_comm]
  rfl

/-- A diagnostic shows any span that begins in the text. -/
theorem points_of_le (path : String) (inside : p.span.offset ≤ (bytes text).length) :
    Points text p.span (p.span.line (bytes text)) (p.span.column (bytes text))
      (p.span.sourceLine (bytes text)) (marks ⟨path, bytes text, p⟩) := by
  obtain ⟨before, own, behind, onLine⟩ := p.span.exists_onLine text
  obtain ⟨n, returns, line, last⟩ := onLine.exists_returns
  have place := p.span.offsetOf_place (bytes text)
  rw [Nat.min_eq_left inside] at place
  refine ⟨⟨n, ?_, ?_⟩, Nat.le_add_left _ _, last, place, ?_⟩
  · rw [onLine.listed, returns]
  · have within := onLine.within
    rw [line, List.length_append, List.length_replicate] at within
    exact within
  · have begins : p.span.offset = Span.offsetOf (bytes text) (p.span.line (bytes text)) 0
        + p.span.column (bytes text) := place.symm
    rw [Span.overlap_eq _ _ _ _ begins]
    show max 1 (min p.span.length (max 1 ((bytes (p.span.sourceLine (bytes text))).length
        - p.span.column (bytes text)))) = max 1 (min p.span.length
          ((bytes (p.span.sourceLine (bytes text))).length - p.span.column (bytes text)))
    omega

end Diagnostic

/-- The problem of a text is about its end, or it begins with a byte that is no blank. -/
theorem span_of_problem {text : String} {p : Problem} (found : p ∈ (parse text).problems) :
    p.span = ⟨(bytes text).length, 0⟩ ∨ (0 < p.span.length
      ∧ ∃ b, (bytes text)[p.span.offset]? = some b ∧ Gap.isBlank b = false) := by
  obtain ⟨problems, run, same⟩ := parse_run text
  have blamed : IsBlamed text p := by
    rw [same] at found
    rcases List.mem_append.mp found with lead | later
    · exact isBlamed_leadProblems List.suffix_rfl p lead
    · exact run.isBlamed List.suffix_rfl p later
  obtain ⟨t, blames, mem | rfl⟩ := blamed
  · right
    rw [blames.span_eq]
    obtain ⟨pos, le, -⟩ := (tiles_tokens text).spells_slice [] rfl t mem
    have place : (Cursor.ofText text).rest = (bytes text).drop (Cursor.ofText text).offset := rfl
    obtain ⟨l, -, begins, -⟩ := (Cursor.ofText text).exists_recognized_of_mem rfl place t mem
    rw [Span.stop] at le
    have inside : t.span.offset < (bytes text).length := by
      rw [List.nil_append] at le
      omega
    refine ⟨pos, (bytes text)[t.span.offset], List.getElem?_eq_getElem inside, ?_⟩
    -- a blank would be a gap in front of the token
    rw [List.drop_eq_getElem_cons inside] at begins
    cases blank : Gap.isBlank (bytes text)[t.span.offset] with
    | false => rfl
    | true =>
      rw [Gap.length_blank blank] at begins
      cases begins
  · exact .inl blames.span_eq

/--
**A diagnostic points at its problem.** No step goes wrong when it is made. It names the line and the
column, both counted from one, of the byte that the problem begins with, shows that line up to
carriage returns at its end, and marks as many bytes behind as many blanks as the problem has on
that row. Only the end of a text has none there, and gets one mark. A problem that goes on behind
the line is marked to the end of what is shown.
-/
theorem render_of_problem (path text : String) {p : Problem} (found : p ∈ (parse text).problems) :
    ∃ (number column : Nat) (shown : String) (marks : Nat),
      Diagnostic.Points text p.span number column shown marks
      ∧ (p.span.overlap (Span.offsetOf (bytes text) number 0) (bytes shown).length = 0
        → p.span = ⟨(bytes text).length, 0⟩)
      ∧ (newline ∈ p.span.slice (bytes text) → column + marks = (bytes shown).length)
      ∧ Diagnostic.render? ⟨path, bytes text, p⟩
        = .ok (p.message ++ "\n  --> " ++ path ++ ":" ++ toString number ++ ":"
          ++ toString (column + 1) ++ "\n   | " ++ shown
          ++ "\n   | " ++ String.ofList (List.replicate column ' ' ++ List.replicate marks '^'))
      ∧ Diagnostic.render? ⟨path, bytes text, p⟩ = .ok (Diagnostic.render ⟨path, bytes text, p⟩) := by
  obtain ⟨before, own, behind, onLine⟩ := p.span.exists_onLine text
  have spanned := span_of_problem found
  have inside : p.span.offset ≤ (bytes text).length := by
    rcases spanned with atEnd | ⟨-, b, first, -⟩
    · rw [atEnd]
    · exact Nat.le_of_lt (List.getElem?_eq_some_iff.mp first).1
  have points := Diagnostic.points_of_le path inside
  have onRow : p.span = ⟨(bytes text).length, 0⟩ ∨ 0 < p.span.length
      ∧ p.span.column (bytes text) < (bytes (p.span.sourceLine (bytes text))).length := by
    refine spanned.imp_right fun ⟨pos, b, first, noBlank⟩ => ⟨pos, onLine.column_lt first ?_ ?_⟩
    all_goals
      rintro rfl
      cases noBlank
  have begins : p.span.offset = Span.offsetOf (bytes text) (p.span.line (bytes text)) 0
      + p.span.column (bytes text) := points.place.symm
  have marks := points.marks
  rw [Span.overlap_eq _ _ _ _ begins] at marks
  refine ⟨_, _, _, _, points, fun none => ?_, fun broken => ?_, ?_, ?_⟩
  · rcases onRow with atEnd | ⟨pos, within⟩
    · exact atEnd
    · rw [Span.overlap_eq _ _ _ _ begins] at none
      omega
  · rcases onRow with atEnd | ⟨pos, within⟩
    · rw [atEnd, Span.slice, List.take_zero] at broken
      cases broken
    · obtain ⟨n, -, line, -⟩ := onLine.exists_returns
      have beyond := onLine.length_lt inside broken
      rw [line, List.length_append] at beyond
      omega
  · rw [Diagnostic.render?_eq, String.ofList_append]
    simp only [Diagnostic.render, Diagnostic.place, Diagnostic.shownLine, Diagnostic.indent,
      Diagnostic.row, String.append_assoc]
  · exact Diagnostic.render?_eq path text p

/-- A string without a closing quote, on two lines that end in carriage returns. -/
def brokenString : String := "x;\nlet y \"ab\r\ncd\r"

/-- Only the first of the two lines is marked, without its carriage return. -/
theorem render_of_brokenString :
    Problem.defect (.unclosedString ⟨9, 8⟩) ∈ (parse brokenString).problems
      ∧ Diagnostic.render? ⟨"main", bytes brokenString, .defect (.unclosedString ⟨9, 8⟩)⟩
        = .ok ("unterminated string literal, expected a closing `\"`\n  --> main:2:7\n"
          ++ "   | let y \"ab\n   |       ^^^") := by
  have found : Problem.defect (.unclosedString ⟨9, 8⟩) ∈ (parse brokenString).problems := by
    decide +kernel
  obtain ⟨_, _, _, _, -, -, -, -, checked⟩ := render_of_problem "main" brokenString found
  refine ⟨found, checked.trans ?_⟩
  decide +kernel

end Scriptlet
