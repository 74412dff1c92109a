import Scriptlet.Proofs.Token.Insertion

/-!
# One source behind another

Bytes put behind a source are tokens of their own, provided that the source admits them: its last
lexeme does not take them in, and neither does a comment behind it (`Admits`). Then the items of
both together are those of the first, followed by those of the second in their new place
(`Admits.items_followed`).

What stands behind a lexeme matters only if nothing stood there before, so `Admits` asks for
something at the last lexeme alone. A `;` goes no further whatever follows, and a lexeme without
defects goes no further in front of a blank (`Item.Ends`).
-/

namespace Scriptlet

open Text Lexeme

/-- A gap is one in front of other bytes as well if these begin alike or with a line end. -/
theorem IsGap.of_head {rest rest' gap : List UInt8} (h : IsGap rest gap)
    (like : ∀ b ∈ rest'.head?, b ∈ rest.head? ∨ Gap.isLineEnd b = true) : IsGap rest' gap := by
  induction h with
  | nil => exact .nil
  | blank isBlank more ih => exact .blank isBlank ih
  | @comment text gap inLine closed more ih =>
    refine .comment inLine ?_ ih
    cases gap with
    | nil =>
      intro b hb
      rcases like b hb with same | closing
      · exact closed b same
      · exact closing
    | cons d gap => exact closed

/-! ## The last lexeme -/

/-- The byte of `;` is a lexeme whatever follows it. -/
theorem Lexeme.Recognized.of_semicolon {source : List UInt8} {l : Lexeme} (h : Recognized source l)
    (hk : l.kind = .semicolon) : ∃ rest, source = bytes ";" ++ rest
      ∧ ∀ rest', Recognized (bytes ";" ++ rest') l := by
  cases h with
  | @symbol kind rest listed longest =>
    obtain rfl : kind = .semicolon := hk
    have spelled : bytes ";" = bytes Kind.semicolon.symbol := rfl
    rw [spelled]
    exact ⟨rest, rfl, fun rest' => .symbol listed nofun⟩
  | word => exact absurd hk (ofWord_ne (by decide) _)
  | eof | integer | float | closed | unclosed | illegal => cases hk

/-- A lexeme at the front of a source is still there when more bytes are put behind the source. If
it is all there is in the source, it must be a `;`, or it is complete and a blank follows. -/
theorem Lexeme.Recognized.append {source more : List UInt8} {l : Lexeme} (h : Recognized source l)
    (begins : Gap.length source = 0) (notEnd : l.kind ≠ .eof)
    (ends : l.length = source.length → l.kind = .semicolon
      ∨ l.unclosed = false ∧ ∀ b ∈ more.head?, Gap.isBlank b = true) :
    Recognized (source ++ more) l ∧ Gap.length (source ++ more) = 0 := by
  have semicolon : l.kind = .semicolon →
      Recognized (source ++ more) l ∧ Gap.length (source ++ more) = 0 := by
    intro hk
    obtain ⟨rest, rfl, any⟩ := h.of_semicolon hk
    rw [List.append_assoc]
    exact ⟨any _, Gap.length_of_token (by decide) fun hs => absurd hs (by decide)⟩
  have pos := (length_pos_of_recognize? (recognize?_eq_some_iff.mpr h) notEnd).1
  obtain ⟨covered, rest, rfl, hlen, atEnd, stable⟩ := h.exists_stable
  have nonempty : covered ≠ [] := List.length_pos_iff.mp (hlen ▸ pos)
  cases rest with
  | nil =>
    rw [List.append_nil] at ends ⊢
    rcases ends hlen with hk | ⟨closed, blank⟩
    · simpa using semicolon hk
    have unclosed : l.unclosed = true → more = [] := fun hl => by cases closed.symm.trans hl
    have like : FollowsLike [] more := by
      cases more with
      | nil => exact .inl rfl
      | cons b more => exact .inr ⟨b, rfl, blank b rfl⟩
    have noSlash : more.head? ≠ some Gap.slash := fun hs => by cases blank _ hs
    exact ⟨stable more like unclosed notEnd,
      Gap.length_eq_zero_of_append nonempty (.inr noSlash) begins⟩
  | cons b rest =>
    rw [List.append_assoc]
    have unclosed : l.unclosed = true → b :: rest ++ more = [] := fun hl => nomatch atEnd hl
    have head : (b :: rest ++ more).head? = (b :: rest).head? := rfl
    exact ⟨stable _ (.inl head) unclosed notEnd,
      Gap.length_eq_zero_of_append nonempty (.inl head) begins⟩

namespace Cursor

/-! ## One step -/

/-- The cursor with more bytes behind those in front of it. -/
def followed (more : List UInt8) (c : Cursor) : Cursor := { c with rest := c.rest ++ more }

/-- The item does not go on in the bytes put behind it, even if it was the last one. -/
def Item.Ends (more : List UInt8) (i : Item) : Prop :=
  i.token.kind = .semicolon ∨ i.defects = [] ∧ ∀ b ∈ more.head?, Gap.isBlank b = true

/-- **Bytes put behind the source do not change the next token.** -/
theorem next_followed {c : Cursor} {more : List UInt8} (hc : c.exhausted = false)
    (notEnd : c.next.1.kind ≠ .eof)
    (ends : c.next.2.rest = [] → Item.Ends more ⟨c.next.1, c.found⟩) :
    (c.followed more).next = (c.next.1, c.next.2.followed more) := by
  obtain ⟨gap, rest, l, same, isGap, begins, recognized, step⟩ := next_of_open hc
  have found := found_of_next step
  rw [step] at notEnd
  have room : gap.length + l.length ≤ c.rest.length := by
    obtain ⟨covered, behind, rfl, hlen⟩ := recognized.exists_covered
    rw [same, hlen]
    simp
  have last : l.length = rest.length → l.kind = .semicolon
      ∨ l.unclosed = false ∧ ∀ b ∈ more.head?, Gap.isBlank b = true := by
    intro hlen
    have empty : c.next.2.rest = [] := by
      rw [step, past, same]
      exact List.drop_of_length_le (by simp [hlen])
    rcases ends empty with hk | ⟨none, blank⟩
    · rw [step] at hk
      exact .inl hk
    · refine .inr ⟨?_, blank⟩
      rw [found, defectsOf] at none
      cases hl : l.unclosed with
      | false => rfl
      | true =>
        rw [hl] at none
        cases none
  obtain ⟨recognized', begins'⟩ := recognized.append begins notEnd last
  have isGap' : IsGap (rest ++ more) gap := by
    refine isGap.of_head fun b hb => .inl ?_
    cases rest with
    | nil => exact absurd rfl (length_pos_of_recognize?
        (recognize?_eq_some_iff.mpr recognized) notEnd).2
    | cons d rest => exact hb
  have split : (c.followed more).rest = gap ++ (rest ++ more) := by
    rw [followed, same, List.append_assoc]
  have ahead : (c.followed more).rest.drop (gap.length + l.length)
      = c.rest.drop (gap.length + l.length) ++ more := List.drop_append_of_le_length room
  have goesOn : (c.followed more).exhausted = false := hc
  rw [next_of_recognized goesOn split isGap' begins' recognized', step, past, ahead]
  rfl

/-! ## The whole source -/

/-- Bytes put behind the source are no part of what stands in front of the cursor. -/
inductive Admits (more : List UInt8) : Cursor → Prop where
  | eof {c : Cursor} (atEnd : c.next.1.kind = .eof) (isGap : IsGap more c.rest) : Admits more c
  | token {c : Cursor} (notEnd : c.next.1.kind ≠ .eof)
      (ends : c.next.2.rest = [] → Item.Ends more ⟨c.next.1, c.found⟩)
      (later : Admits more c.next.2) : Admits more c

/-- A gap in front of a cursor has no items. -/
theorem items_of_gap {c d : Cursor} {gap : List UInt8} (hc : c.exhausted = false)
    (hd : d.exhausted = false) (rest : c.rest = gap ++ d.rest) (isGap : IsGap d.rest gap)
    (place : d.offset = c.offset + gap.length) : c.items = d.items := by
  obtain ⟨l, found, -⟩ := exists_recognized (d.rest.drop (Gap.length d.rest))
  have skipped : Gap.length c.rest = gap.length + Gap.length d.rest := by
    rw [rest, isGap.length_append]
  have behind : ∀ n, c.rest.drop (gap.length + n) = d.rest.drop n := by
    intro n
    rw [rest, ← List.drop_drop, List.drop_left]
  have step : c.forget.next = d.forget.next := by
    simp only [next, forget, hc, hd, Bool.false_eq_true, if_false, skipped, behind, found, token,
      past, defectsOf, place, Nat.add_assoc]
  rw [items, items.eq_1 d, step]

/-- **The items of a source with more bytes behind it** are its own, and then those of the bytes. -/
theorem Admits.items_followed {c : Cursor} {more : List UInt8} (h : Admits more c)
    (hc : c.exhausted = false) :
    (c.followed more).items = c.items ++ (Cursor.mk c.stop more false []).items := by
  induction h with
  | @eof c atEnd isGap =>
    rw [items_of_eof atEnd, List.nil_append]
    exact items_of_gap hc rfl rfl isGap rfl
  | @token c notEnd ends later ih =>
    have step := next_followed hc notEnd ends
    have found : (c.followed more).found = c.found := by
      have kept : (c.followed more).next.2.defects = c.defects ++ (c.followed more).found := by
        rw [next_eq]
        rfl
      have kept' : c.next.2.defects = c.defects ++ c.found := by rw [next_eq]
      rw [step] at kept
      exact (List.append_cancel_left (kept'.symm.trans kept)).symm
    rw [items_of_ne_eof notEnd, items_of_ne_eof (by rw [step]; exact notEnd), step, found,
      ih (next_of_ne_eof hc notEnd).1, stop_next, List.cons_append]

/-! ## What a source admits -/

/-- A source whose last byte is a `;` of its own admits all bytes. -/
theorem admits_of_semicolon (more : List UInt8) {c : Cursor} (hc : c.exhausted = false)
    (noGap : c.remaining = [] → c.rest = [])
    (last : ∀ t ∈ c.remaining.getLast?, t.kind = .semicolon ∧ t.span.stop = c.stop) :
    Admits more c := by
  induction c using items_induction with
  | eof c atEnd =>
    refine .eof atEnd ?_
    rw [noGap (remaining_of_eof atEnd)]
    exact .nil
  | step c notEnd ih =>
    obtain ⟨goesOn, offset⟩ := next_of_ne_eof hc notEnd
    rw [remaining_of_ne_eof notEnd] at last
    -- behind the last token nothing is left
    have single : c.next.2.remaining = [] →
        c.next.1.kind = .semicolon ∧ c.next.1.span.stop = c.stop := by
      intro none
      rw [none] at last
      exact last _ rfl
    refine .token notEnd (fun empty => ?_) (ih goesOn (fun none => ?_) ?_)
    · refine .inl (single ?_).1
      rw [remaining_eq, items_of_rest_nil empty, List.map_nil]
    · have stop := (single none).2
      rw [← offset, ← stop_next, Cursor.stop] at stop
      exact List.eq_nil_of_length_eq_zero (by omega)
    · rw [stop_next]
      cases later : c.next.2.remaining with
      | nil => rintro _ ⟨⟩
      | cons t rest =>
        rw [later, List.getLast?_cons_cons] at last
        exact last

end Cursor

end Scriptlet
