import Scriptlet.Proofs.Token.Tiling

/-!
# Strings without an end

Only one thing can be wrong with a token: a string has no closing quote. Such a string goes on to
the end of the source, so it is the last token, and there is at most one (`lastUnclosed_items`).
`Token.Unclosed` says it of the bytes of the source, without a look at what the recognizers note.
-/

namespace Scriptlet

open Text Lexeme

/-- The token is a string that goes on from its quote to the end of the source. -/
structure Token.Unclosed (source : List UInt8) (t : Token) : Prop where
  kind : t.kind = .string
  slice : t.span.slice source = quoteMark :: bytes t.literal
  stop : t.span.stop = source.length

/-- Only the last item has a defect, and only if it is a string without an end. -/
def LastUnclosed (source : List UInt8) (items : List Cursor.Item) : Prop :=
  ∀ i rest, i :: rest <:+ items → i.defects = []
    ∨ i.defects = [.unclosedString i.token.span] ∧ rest = [] ∧ i.token.Unclosed source

theorem Lexeme.Recognized.of_unclosed {source : List UInt8} {l : Lexeme} (h : Recognized source l)
    (hl : l.unclosed = true) : ∃ content, source = quoteMark :: content
      ∧ l = ⟨.string, content.length + 1, content, true⟩ ∧ quoteMark ∉ content := by
  cases h with
  | unclosed inside => exact ⟨_, rfl, rfl, inside⟩
  | eof | word | integer | float | closed | symbol | illegal => cases hl

namespace Cursor

theorem items_of_rest_nil {c : Cursor} (h : c.rest = []) : c.items = [] := by
  by_cases hk : c.next.1.kind = .eof
  · exact items_of_eof hk
  · have shorter := length_rest_next hk
    rw [h] at shorter
    exact absurd shorter (Nat.not_lt_zero _)

/-- What is seen in one token, where `front` are the bytes behind the cursor. -/
theorem found_cases {text : String} {front : List UInt8} {c : Cursor}
    (stored : bytes text = front ++ c.rest) (place : front.length = c.offset)
    (hc : c.exhausted = false) : c.found = []
      ∨ c.found = [.unclosedString c.next.1.span] ∧ c.next.2.items = []
        ∧ c.next.1.Unclosed (bytes text) := by
  obtain ⟨gap, rest, l, same, -, -, recognized, step⟩ := next_of_open hc
  have found := found_of_next step
  cases hl : l.unclosed with
  | false =>
    refine .inl ?_
    rw [found, defectsOf, hl, if_neg Bool.false_ne_true]
  | true =>
    obtain ⟨content, rfl, rfl, -⟩ := recognized.of_unclosed hl
    have passed : bytes text = (front ++ gap) ++ quoteMark :: content := by
      rw [stored, same, List.append_assoc]
    have literal := bytes_literal_string (l := ⟨.string, content.length + 1, content, true⟩) rfl
      (exists_text_after (by decide) passed)
    have front_length : (front ++ gap).length = c.offset + gap.length := by
      rw [List.length_append, place]
    refine .inr ⟨?_, ?_, ?_⟩
    · rw [found, step]
      rfl
    · refine items_of_rest_nil ?_
      rw [step, past, same]
      simp
    · rw [step]
      refine ⟨rfl, ?_, ?_⟩
      · rw [token, literal, Span.slice, passed, ← front_length, List.drop_left]
        exact List.take_of_length_le (Nat.le_refl _)
      · rw [token, Span.stop, passed, List.length_append, front_length, List.length_cons]

/-- The cursor stands in the text and has not come to its end. -/
structure StandsIn (text : String) (c : Cursor) : Prop where
  stored : ∃ front, bytes text = front ++ c.rest ∧ front.length = c.offset
  goesOn : c.exhausted = false

theorem standsIn_ofText (text : String) : StandsIn text (ofText text) := ⟨⟨[], rfl, rfl⟩, rfl⟩

/-- A token that is handed out takes the cursor further into the text. -/
theorem StandsIn.next {text : String} {c : Cursor} (h : StandsIn text c)
    (notEnd : c.next.1.kind ≠ .eof) : StandsIn text c.next.2 :=
  ⟨stored_next h.stored, (next_of_ne_eof h.goesOn notEnd).1⟩

/-- Only the last token in front of a cursor may have a defect. -/
theorem StandsIn.lastUnclosed_items {text : String} {c : Cursor} :
    StandsIn text c → LastUnclosed (bytes text) c.items := by
  induction c using items_induction with
  | eof c atEnd =>
    intro _ i rest suffix
    rw [items_of_eof atEnd] at suffix
    exact absurd (List.suffix_nil.mp suffix) (by simp)
  | step c notEnd ih =>
    intro h i rest suffix
    rw [items_of_ne_eof notEnd, List.suffix_cons_iff] at suffix
    rcases suffix with same | later
    · obtain ⟨rfl, rfl⟩ := List.cons.inj same
      obtain ⟨front, stored, place⟩ := h.stored
      exact found_cases stored place h.goesOn
    · exact ih (h.next notEnd) i rest later

end Cursor

/-- **Only the last token of a text may have a defect**, which is that it is a string without an
end. -/
theorem lastUnclosed_items (text : String) :
    LastUnclosed (bytes text) (Cursor.ofText text).items :=
  (Cursor.standsIn_ofText text).lastUnclosed_items

/-- So there is at most one defect. -/
theorem LastUnclosed.length_defects_le {source : List UInt8} {items : List Cursor.Item}
    (h : LastUnclosed source items) : (items.flatMap Cursor.Item.defects).length ≤ 1 := by
  induction items with
  | nil => exact Nat.zero_le 1
  | cons i rest ih =>
    rw [List.flatMap_cons]
    rcases h i rest List.suffix_rfl with none | ⟨one, rfl, -⟩
    · rw [none, List.nil_append]
      exact ih fun j later suffix => h j later (suffix.trans (List.suffix_cons i rest))
    · rw [one]
      exact Nat.le_refl 1

/-! ## The defects of a token -/

instance (source : List UInt8) (t : Token) : Decidable (t.Unclosed source) :=
  decidable_of_iff (t.kind = .string ∧ t.span.slice source = quoteMark :: bytes t.literal
      ∧ t.span.stop = source.length)
    ⟨fun ⟨kind, slice, stop⟩ => ⟨kind, slice, stop⟩, fun h => ⟨h.kind, h.slice, h.stop⟩⟩

/-- What is wrong with a token of the source. -/
def Token.defectsIn (source : List UInt8) (t : Token) : List Defect :=
  if t.Unclosed source then [.unclosedString t.span] else []

namespace Cursor.StandsIn

variable {text : String} {c : Cursor}

/-- What is seen in the next token is what is wrong with it. -/
theorem found_eq (h : StandsIn text c) : c.found = c.next.1.defectsIn (bytes text) := by
  obtain ⟨front, stored, place⟩ := h.stored
  obtain ⟨gap, rest, l, same, -, -, recognized, step⟩ := next_of_open h.goesOn
  have found := found_of_next step
  have passed : bytes text = (front ++ gap) ++ rest := by rw [stored, same, List.append_assoc]
  have front_length : (front ++ gap).length = c.offset + gap.length := by
    rw [List.length_append, place]
  rcases found_cases stored place h.goesOn with none | ⟨defect, -, unclosed⟩
  · rw [none, Token.defectsIn, if_neg]
    intro unclosed
    have isString : l.kind = .string := by
      have kind := unclosed.kind
      rwa [step] at kind
    cases recognized with
    | @closed content behind inside =>
      -- both quotes belong to the token, and only one would if it were not closed
      have literal := bytes_literal_string (l := ⟨.string, content.length + 2, content, false⟩) rfl
        (exists_text_between (by decide) (by decide) passed)
      have slice := congrArg List.length unclosed.slice
      rw [step, token, literal, Span.slice, passed, ← front_length, List.drop_left] at slice
      simp at slice
    | unclosed inside => cases found.symm.trans none
    | word => exact absurd isString (ofWord_ne (by decide) _)
    | symbol listed => exact absurd isString (ne_of_mem_symbols listed (by decide))
    | eof | integer | float | illegal => cases isString
  · rw [defect, Token.defectsIn, if_pos unclosed]

/-- The defects seen in a token of a text are what is wrong with it. -/
theorem defects_eq : StandsIn text c →
    ∀ i ∈ c.items, i.defects = i.token.defectsIn (bytes text) := by
  induction c using items_induction with
  | eof c atEnd =>
    intro _ i hi
    rw [items_of_eof atEnd] at hi
    exact absurd hi List.not_mem_nil
  | step c notEnd ih =>
    intro h i hi
    rw [items_of_ne_eof notEnd] at hi
    rcases List.mem_cons.mp hi with rfl | hi
    · exact h.found_eq
    · exact ih (h.next notEnd) i hi

end Cursor.StandsIn

end Scriptlet
