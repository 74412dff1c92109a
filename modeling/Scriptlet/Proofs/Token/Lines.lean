import Scriptlet.Proofs.Text.Line
import Scriptlet.Proofs.Token.Covering
import Scriptlet.Proofs.Token.Joining

/-!
# Tokens line by line

No token but a string goes on behind a newline. Where no string does, a line of a text can be read
for itself: the tokens of a text are those of its lines one after the other, but for their places
(`items_lines`).

A line end may close a comment of the line, and is a blank otherwise, so the line admits the rest of
the text behind it (`StandsIn.admits`). This would fail only for a string that the line leaves open,
and then the string of the whole text has the line end in it.
-/

namespace Scriptlet

open Text Lexeme

/-- Every string of the text ends on the line where it begins. -/
def InLine (items : List Cursor.Item) : Prop :=
  ∀ i ∈ items, i.token.kind = .string → newline ∉ bytes i.token.literal

/-- The bytes end a line, and perhaps there are more of them. -/
structure EndsLine (more : List UInt8) : Prop where
  split : ∃ ending rest, more = ending ++ rest ∧ newline ∈ ending ∧ quoteMark ∉ ending
  head : ∀ b ∈ more.head?, Gap.isLineEnd b = true

/-- A string in front of bytes without a quote has all of them in it. -/
theorem Spells.mem_of_noQuote {literal : String} {covered run rest behind : List UInt8}
    (h : Spells .string literal covered behind)
    (same : covered ++ behind = quoteMark :: (run ++ rest)) (noQuote : quoteMark ∉ run) :
    ∀ b ∈ run, b ∈ bytes literal := by
  intro b hb
  obtain ⟨-, rfl | ⟨rfl, rfl⟩⟩ := h
  · have same : bytes literal ++ quoteMark :: behind = run ++ rest := by simpa using same
    rcases List.append_eq_append_iff.mp same with ⟨more, rfl, tail⟩ | ⟨more, inside, -⟩
    · cases more with
      | nil => simpa using hb
      | cons d more =>
        obtain ⟨rfl, -⟩ := List.cons.inj tail
        exact absurd (List.mem_append_right _ List.mem_cons_self) noQuote
    · rw [inside]
      exact List.mem_append_left more hb
  · have same : bytes literal = run ++ rest := by simpa using same
    rw [same]
    exact List.mem_append_left rest hb

namespace Cursor

variable {text : String} {more : List UInt8} {c : Cursor}

/-- If a line leaves a string open, the string goes on behind the line. -/
theorem StandsIn.not_inLine (h : StandsIn text (c.followed more)) (ends : EndsLine more)
    (defective : c.found ≠ []) : ¬ InLine (c.followed more).items := by
  intro inLine
  obtain ⟨front, stored, -⟩ := h.stored
  obtain ⟨ending, later, rfl, hasNewline, noQuote⟩ := ends.split
  obtain ⟨gap, rest, l, same, isGap, -, recognized, step⟩ := next_of_open (c := c) h.goesOn
  have unclosed : l.unclosed = true := by
    rw [← Bool.not_eq_false]
    intro hl
    rw [found_of_next step, defectsOf, hl] at defective
    exact defective rfl
  obtain ⟨content, rfl, -, noQuote'⟩ := recognized.of_unclosed unclosed
  have split : (c.followed (ending ++ later)).rest
      = gap ++ quoteMark :: (content ++ ending ++ later) := by
    rw [followed, same]
    simp
  obtain ⟨l', -, recognized'⟩ := exists_recognized (quoteMark :: (content ++ ending ++ later))
  have begins : Gap.length (quoteMark :: (content ++ ending ++ later)) = 0 :=
    Gap.length_of_token rfl fun hb => absurd hb (by decide)
  have step' := next_of_recognized h.goesOn split (isGap.of_head fun b hb => .inl hb) begins
    recognized'
  have isString : l'.kind = .string := by
    obtain ⟨-, -, ⟨-, -, rfl⟩ | ⟨-, rfl⟩⟩ := recognized'.of_quote <;> rfl
  have notEnd : l'.kind ≠ .eof := by
    rw [isString]
    decide
  have passed : bytes text = (front ++ gap) ++ quoteMark :: (content ++ ending ++ later) := by
    rw [stored, split, ← List.append_assoc]
  obtain ⟨covered, behind, cut, -, -, spells⟩ := recognized'.spells passed notEnd
  rw [isString] at spells
  have goesOn := spells.mem_of_noQuote cut.symm
    (fun hq => (List.mem_append.mp hq).elim noQuote' noQuote) newline
    (List.mem_append_right content hasNewline)
  have first := inLine _ (by
    rw [items_of_ne_eof (by rw [step']; exact notEnd)]
    exact List.mem_cons_self)
  rw [step'] at first
  exact first isString goesOn

/-- **A line admits the rest of its text** if no string goes on behind the line. -/
theorem StandsIn.admits (ends : EndsLine more) : StandsIn text (c.followed more) →
    InLine (c.followed more).items → Admits more c := by
  have lineEnd : ∀ b ∈ more.head?, Gap.isBlank b = true := fun b hb =>
    Gap.isBlank_of_isLineEnd (ends.head b hb)
  induction c using items_induction with
  | eof c atEnd =>
    intro h _
    obtain ⟨gap, rest, l, same, isGap, -, recognized, step⟩ := next_of_open (c := c) h.goesOn
    rw [step] at atEnd
    obtain ⟨rfl, -⟩ := recognized.of_eof atEnd
    refine .eof (by rw [step]; exact atEnd) ?_
    rw [same, List.append_nil]
    exact isGap.of_head fun b hb => .inr (ends.head b hb)
  | step c notEnd ih =>
    intro h inLine
    have closed : c.found = [] := Classical.byContradiction fun defective =>
      h.not_inLine ends defective inLine
    have goesOn : c.exhausted = false := h.goesOn
    have step := next_followed goesOn notEnd fun _ => .inr ⟨closed, lineEnd⟩
    have notEnd' : (c.followed more).next.1.kind ≠ .eof := by rw [step]; exact notEnd
    refine .token notEnd (fun _ => .inr ⟨closed, lineEnd⟩) (ih ?_ ?_)
    · have later := h.next notEnd'
      rwa [step] at later
    · rw [items_of_ne_eof notEnd', step] at inLine
      exact fun i hi => inLine i (List.mem_cons_of_mem _ hi)

end Cursor

/-! ## All lines of a text -/

theorem exists_endsLine (piece rest : List UInt8) : ∃ ending,
    piece ++ newline :: rest = dropReturn piece ++ (ending ++ rest) ∧ EndsLine (ending ++ rest)
      ∧ IsGap rest ending := by
  obtain ⟨ending, same, short⟩ := exists_ending piece
  refine ⟨ending, ?_, ?_⟩
  · rw [← List.append_assoc, ← same, List.append_assoc]
    rfl
  · rcases short with rfl | rfl
    · refine ⟨⟨⟨_, _, rfl, by decide, by decide⟩, ?_⟩, .blank rfl .nil⟩
      rintro _ ⟨⟩
      rfl
    · refine ⟨⟨⟨_, _, rfl, by decide, by decide⟩, ?_⟩, .blank rfl (.blank rfl .nil)⟩
      rintro _ ⟨⟩
      rfl

/-- The tokens of a text are those of its first line and those of the rest, in their places. -/
theorem exists_items_append {text front rest : String}
    (stored : bytes text = bytes front ++ newline :: bytes rest)
    (inLine : InLine (Cursor.ofText text).items) : ∃ n, (Cursor.ofText text).items
      = (Cursor.ofBytes (dropReturn (bytes front))).items
        ++ (Cursor.ofText rest).items.map (Cursor.Item.respan (Span.shift n)) := by
  obtain ⟨ending, same, ends, isGap⟩ := exists_endsLine (bytes front) (bytes rest)
  have whole : (Cursor.ofBytes (dropReturn (bytes front))).followed (ending ++ bytes rest)
      = Cursor.ofText text := by
    rw [Cursor.ofText, stored, same]
    rfl
  have admits : Cursor.Admits (ending ++ bytes rest)
      (Cursor.ofBytes (dropReturn (bytes front))) := by
    have standsIn := Cursor.standsIn_ofText text
    rw [← whole] at standsIn inLine
    exact standsIn.admits ends inLine
  refine ⟨(dropReturn (bytes front)).length + ending.length, ?_⟩
  rw [← whole, admits.items_followed rfl, ← Cursor.items_moved]
  congr 1
  refine Cursor.items_of_gap rfl rfl rfl isGap ?_
  simp [Cursor.moved, Cursor.ofText, Cursor.ofBytes, Cursor.stop]

/-- **The tokens of a text are those of its lines**, but for their places. -/
theorem items_lines (text : String) : InLine (Cursor.ofText text).items →
    (Cursor.ofText text).items.map Cursor.Item.unplaced
      = (lines (bytes text)).flatMap fun line =>
          (Cursor.ofBytes line).items.map Cursor.Item.unplaced := by
  induction text using lines_induction with
  | last text free =>
    intro _
    rw [lines_of_free free]
    split
    · next none =>
      rw [Cursor.items_of_rest_nil (c := Cursor.ofText text) none]
      rfl
    · rw [List.flatMap_singleton]
      rfl
  | line text front rest stored free ih =>
    intro inLine
    obtain ⟨n, items⟩ := exists_items_append stored inLine
    have inLine' : InLine (Cursor.ofText rest).items := fun i hi => by
      refine inLine (i.respan (Span.shift n)) ?_
      rw [items]
      exact List.mem_append_right _ (List.mem_map_of_mem hi)
    have same : Cursor.Item.unplaced ∘ Cursor.Item.respan (Span.shift n)
        = Cursor.Item.unplaced := funext (Cursor.Item.unplaced_respan _)
    rw [items, stored, lines_append free, List.flatMap_cons, List.map_append, List.map_map, same,
      ih inLine']

end Scriptlet
