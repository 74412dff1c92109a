import Scriptlet.Proofs.Token.Gap
import Scriptlet.Proofs.Token.Recognition
import Scriptlet.Token.Cursor

/-!
# The stream of tokens

`Cursor.items` are the tokens in front of a cursor, each with the defects seen in it. Defects that a
cursor has kept from before have no part in them (`items_forget`), and neither has its place but for
the spans (`items_moved`).

Everything about the stream comes from one statement about one step: `next_of_open` splits the bytes
in front of the cursor into a gap, the bytes of a lexeme and the rest. `Item.Lexed` keeps of it what
holds of a single token.
-/

namespace Scriptlet

namespace Cursor

/-! ## One step -/

theorem next_of_exhausted {c : Cursor} (h : c.exhausted = true) : c.next = (.eof ⟨c.stop, 0⟩, c) := by
  simp only [next, h, if_true]

/-- A cursor that has not reached the end hands out the lexeme behind the gap. -/
theorem next_of_open {c : Cursor} (h : c.exhausted = false) : ∃ gap rest l,
    c.rest = gap ++ rest ∧ IsGap rest gap ∧ Gap.length rest = 0 ∧ Lexeme.Recognized rest l
      ∧ c.next = (c.token gap.length l, c.past gap.length l) := by
  obtain ⟨gap, rest, same, isGap, hrest⟩ := Gap.exists_gap c.rest
  obtain ⟨l, found, recognized⟩ := Lexeme.exists_recognized rest
  refine ⟨gap, rest, l, same, isGap, hrest, recognized, ?_⟩
  have hlen : Gap.length c.rest = gap.length := by rw [same, isGap.length_append, hrest]; rfl
  have behind : c.rest.drop gap.length = rest := by rw [same, List.drop_left]
  simp only [next, h, Bool.false_eq_true, if_false, hlen, behind, found]

/-- A cursor that handed out a token goes on behind it. -/
theorem next_of_ne_eof {c : Cursor} (hc : c.exhausted = false) (notEnd : c.next.1.kind ≠ .eof) :
    c.next.2.exhausted = false ∧ c.next.2.offset = c.next.1.span.stop := by
  obtain ⟨gap, rest, l, -, -, -, -, step⟩ := next_of_open hc
  rw [step] at notEnd ⊢
  exact ⟨beq_eq_false_iff_ne.mpr notEnd, rfl⟩

/-- Behind a lexeme stands what was there before. -/
theorem rest_past {c : Cursor} {gap covered behind : List UInt8} {l : Lexeme}
    (same : c.rest = gap ++ (covered ++ behind)) (hlen : l.length = covered.length) :
    (c.past gap.length l).rest = behind := by
  rw [past, same, hlen, ← List.append_assoc, ← List.length_append, List.drop_left]

/-- The cursor without the defects it has kept. -/
def forget (c : Cursor) : Cursor := { c with defects := [] }

/-- The defects that are seen in the next token. -/
def found (c : Cursor) : List Defect := c.forget.next.2.defects

@[simp] theorem forget_stop (c : Cursor) : c.forget.stop = c.stop := rfl

@[simp] theorem forget_forget (c : Cursor) : c.forget.forget = c.forget := rfl

/-- A step adds to the defects and looks at none of them. -/
theorem next_eq (c : Cursor) :
    c.next = (c.forget.next.1, { c.forget.next.2 with defects := c.defects ++ c.found }) := by
  cases h : c.exhausted with
  | true =>
    have h' : c.forget.exhausted = true := h
    simp only [found, next_of_exhausted h, next_of_exhausted h']
    simp [forget, stop]
  | false =>
    simp only [found, next, forget, h, Bool.false_eq_true, if_false]
    split
    · simp [token, past, defectsOf]
    · simp [stop]

theorem found_of_next {c : Cursor} {skipped : Nat} {l : Lexeme}
    (step : c.next = (c.token skipped l, c.past skipped l)) : c.found = c.defectsOf skipped l := by
  have kept : c.next.2.defects = c.defects ++ c.found := by rw [next_eq]
  rw [step] at kept
  exact (List.append_cancel_left kept).symm

theorem next_fst_forget (c : Cursor) : c.forget.next.1 = c.next.1 := by rw [next_eq c]

theorem forget_next_snd (c : Cursor) : c.next.2.forget = c.forget.next.2.forget := by
  rw [next_eq c]
  rfl

/-! ## The end of the source -/

/-- At the end a cursor hands out the place where the source ends, and is exhausted. -/
theorem next_of_eof {c : Cursor} (h : c.next.1.kind = .eof) :
    c.next.1 = .eof ⟨c.stop, 0⟩ ∧ c.next.2.exhausted = true := by
  cases hc : c.exhausted with
  | true =>
    rw [next_of_exhausted hc]
    exact ⟨rfl, hc⟩
  | false =>
    obtain ⟨gap, rest, l, same, -, -, recognized, step⟩ := next_of_open hc
    rw [step] at h ⊢
    have atEnd : l.kind = .eof := h
    obtain ⟨rfl, rfl⟩ := recognized.of_eof atEnd
    refine ⟨?_, rfl⟩
    rw [List.append_nil] at same
    rw [token, Lexeme.literal_eof, stop, same]
    rfl

/-- A step passes some bytes and goes forward by their number. -/
theorem exists_passed (c : Cursor) : ∃ passed,
    c.rest = passed ++ c.next.2.rest ∧ c.next.2.offset = c.offset + passed.length := by
  cases hc : c.exhausted with
  | true =>
    rw [next_of_exhausted hc]
    exact ⟨[], rfl, rfl⟩
  | false =>
    obtain ⟨gap, rest, l, same, -, -, recognized, step⟩ := next_of_open hc
    obtain ⟨covered, behind, rfl, hlen⟩ := recognized.exists_covered
    refine ⟨gap ++ covered, ?_, ?_⟩
    · rw [step, rest_past same hlen, same, List.append_assoc]
    · rw [step, past, hlen, List.length_append, Nat.add_assoc]

/-- A cursor that has passed as many bytes of a source as its place says goes on doing so. -/
theorem stored_next {source : List UInt8} {c : Cursor}
    (h : ∃ front, source = front ++ c.rest ∧ front.length = c.offset) :
    ∃ front, source = front ++ c.next.2.rest ∧ front.length = c.next.2.offset := by
  obtain ⟨front, stored, place⟩ := h
  obtain ⟨passed, same, ahead⟩ := c.exists_passed
  refine ⟨front ++ passed, ?_, ?_⟩
  · rw [stored, same, List.append_assoc]
  · rw [List.length_append, place, ahead]

/-- No step changes where the source ends. -/
@[simp] theorem stop_next (c : Cursor) : c.next.2.stop = c.stop := by
  obtain ⟨passed, same, ahead⟩ := c.exists_passed
  rw [stop, stop, ahead, same, List.length_append, Nat.add_assoc]

/-- The end has no defects. -/
theorem found_of_eof {c : Cursor} (h : c.next.1.kind = .eof) : c.found = [] := by
  cases hc : c.exhausted with
  | true =>
    rw [found, next_of_exhausted (c := c.forget) hc]
    rfl
  | false =>
    obtain ⟨gap, rest, l, -, -, -, recognized, step⟩ := next_of_open (c := c.forget) hc
    rw [← next_fst_forget, step] at h
    obtain ⟨rfl, rfl⟩ := recognized.of_eof h
    rw [found, step]
    rfl

/-! ## Items -/

/-- A token and the defects seen in it. -/
structure Item where
  token : Token
  defects : List Defect
deriving DecidableEq

/-- The tokens in front of the cursor up to the end of the source. -/
def items (c : Cursor) : List Item :=
  let step := c.forget.next
  if step.1.kind = .eof then [] else ⟨step.1, step.2.defects⟩ :: items step.2
termination_by c.rest.length
decreasing_by exact length_rest_next (c := c.forget) ‹_›

theorem items_of_eof {c : Cursor} (h : c.next.1.kind = .eof) : c.items = [] := by
  rw [items, if_pos (by rw [next_fst_forget]; exact h)]

@[simp] theorem items_forget (c : Cursor) : c.forget.items = c.items := by
  rw [items, items.eq_1 c, forget_forget]

theorem items_of_ne_eof {c : Cursor} (h : c.next.1.kind ≠ .eof) :
    c.items = ⟨c.next.1, c.found⟩ :: c.next.2.items := by
  rw [items, if_neg (by rw [next_fst_forget]; exact h), next_fst_forget, found,
    ← items_forget c.next.2, forget_next_snd, items_forget]

/-- The end is handed out again and again. -/
theorem items_next_of_eof {c : Cursor} (h : c.next.1.kind = .eof) : c.next.2.items = [] := by
  refine items_of_eof ?_
  rw [next_of_exhausted (next_of_eof h).2]
  rfl

/-- Induction along the stream. -/
theorem items_induction {motive : Cursor → Prop} (eof : ∀ c, c.next.1.kind = .eof → motive c)
    (step : ∀ c, c.next.1.kind ≠ .eof → motive c.next.2 → motive c) (c : Cursor) : motive c := by
  by_cases h : c.next.1.kind = .eof
  · exact eof c h
  · exact step c h (items_induction eof step c.next.2)
termination_by c.rest.length
decreasing_by exact length_rest_next h

/-- The item comes from a lexeme that was recognized. -/
def Item.Lexed (i : Item) : Prop :=
  ∃ source l, Lexeme.Recognized source l ∧ l.kind ≠ .eof ∧ i.token.kind = l.kind
    ∧ i.token.literal = l.literal
    ∧ i.defects = if l.unclosed then [.unclosedString i.token.span] else []

theorem lexed_of_mem_items (c : Cursor) : ∀ i ∈ c.items, i.Lexed := by
  induction c using items_induction with
  | eof c h =>
    rw [items_of_eof h]
    simp
  | step c h ih =>
    rw [items_of_ne_eof h]
    intro i hi
    rcases List.mem_cons.mp hi with rfl | hi
    · cases hc : c.exhausted with
      | true =>
        rw [next_of_exhausted hc] at h
        exact absurd rfl h
      | false =>
        obtain ⟨gap, rest, l, -, -, -, recognized, step⟩ := next_of_open (c := c.forget) hc
        have token : c.next.1 = c.forget.token gap.length l := by rw [← next_fst_forget, step]
        have defects : c.found = c.forget.defectsOf gap.length l := by rw [found, step]; rfl
        rw [token] at h ⊢
        rw [defects]
        exact ⟨rest, l, recognized, h, rfl, rfl, rfl⟩
    · exact ih i hi

namespace Item.Lexed

variable {i : Item}

theorem ne_eof (h : i.Lexed) : i.token.kind ≠ .eof := by
  obtain ⟨-, l, -, notEnd, kind, -, -⟩ := h
  rw [kind]
  exact notEnd

/-- Only strings have defects. -/
theorem defects_of_ne_string (h : i.Lexed) (hk : i.token.kind ≠ .string) : i.defects = [] := by
  obtain ⟨source, l, recognized, -, kind, -, defects⟩ := h
  rw [defects]
  rw [kind] at hk
  cases recognized with
  | unclosed => exact absurd rfl hk
  | eof | word | integer | float | closed | symbol | illegal => rfl

end Item.Lexed

/-- The tokens before the end are those of the items. -/
theorem remaining_eq (c : Cursor) : c.remaining = c.items.map Item.token := by
  induction c using items_induction with
  | eof c h => rw [remaining, drain, if_pos h, items_of_eof h, List.map_nil]
  | step c h ih =>
    rw [remaining, drain, if_neg h, items_of_ne_eof h, List.map_cons, ← ih]
    rfl

theorem remaining_of_eof {c : Cursor} (h : c.next.1.kind = .eof) : c.remaining = [] := by
  rw [remaining_eq, items_of_eof h, List.map_nil]

theorem remaining_of_ne_eof {c : Cursor} (h : c.next.1.kind ≠ .eof) :
    c.remaining = c.next.1 :: c.next.2.remaining := by
  rw [remaining_eq, remaining_eq, items_of_ne_eof h, List.map_cons]

end Cursor

/-! ## Places -/

/-- The token in another place. -/
def Token.respan (f : Span → Span) (t : Token) : Token := { t with span := f t.span }

def Defect.respan (f : Span → Span) : Defect → Defect
  | .unclosedString span => .unclosedString (f span)

namespace Cursor.Item

/-- The item in another place. -/
def respan (f : Span → Span) (i : Item) : Item :=
  ⟨i.token.respan f, i.defects.map (Defect.respan f)⟩

/-- The item without its place. -/
def unplaced : Item → Item := respan fun _ => ⟨0, 0⟩

/-- It does not matter where the item was before. -/
@[simp] theorem unplaced_respan (f : Span → Span) (i : Item) :
    (i.respan f).unplaced = i.unplaced := by
  have defects : ∀ d : Defect,
      (d.respan f).respan (fun _ => ⟨0, 0⟩) = d.respan fun _ => ⟨0, 0⟩ := by
    rintro ⟨⟩
    rfl
  simp [unplaced, respan, Token.respan, defects]

end Cursor.Item

/-! ## A stream behind other bytes -/

namespace Cursor

/-- The same cursor in a source with `n` more bytes in front. -/
def moved (n : Nat) (c : Cursor) : Cursor := { c with offset := n + c.offset }

/-- A step of a cursor does not depend on its place, but for the spans. -/
theorem next_moved (n : Nat) (c : Cursor) : (c.moved n).next.1 = c.next.1.respan (Span.shift n)
    ∧ (c.moved n).next.2.forget = (c.next.2.moved n).forget := by
  have hstop : (c.moved n).stop = n + c.stop := Nat.add_assoc n c.offset c.rest.length
  unfold next
  by_cases hc : c.exhausted = true
  · have hm : (c.moved n).exhausted = true := hc
    rw [if_pos hc, if_pos hm, hstop]
    exact ⟨rfl, rfl⟩
  · have hm : ¬ (c.moved n).exhausted = true := hc
    rw [if_neg hc, if_neg hm, hstop]
    dsimp only [moved]
    split
    · constructor
      · simp only [token, Token.respan, Span.shift, Nat.add_assoc]
      · simp only [past, forget, Nat.add_assoc]
    · exact ⟨rfl, rfl⟩

theorem found_moved (n : Nat) (c : Cursor) :
    (c.moved n).found = c.found.map (Defect.respan (Span.shift n)) := by
  cases hc : c.exhausted with
  | true =>
    rw [found, found, next_of_exhausted (c := c.forget) hc,
      next_of_exhausted (c := (c.moved n).forget) hc]
    rfl
  | false =>
    obtain ⟨l, recognized, -⟩ := Lexeme.exists_recognized (c.rest.drop (Gap.length c.rest))
    simp only [found, next, forget, moved, hc, Bool.false_eq_true, if_false, recognized, past,
      defectsOf, List.nil_append, Nat.add_assoc]
    split <;> rfl

theorem items_moved (n : Nat) (c : Cursor) :
    (c.moved n).items = c.items.map (Item.respan (Span.shift n)) := by
  induction c using items_induction with
  | eof c h =>
    have hm : (c.moved n).next.1.kind = .eof := by
      rw [(next_moved n c).1]
      exact h
    rw [items_of_eof h, items_of_eof hm, List.map_nil]
  | step c h ih =>
    have hm : (c.moved n).next.1.kind ≠ .eof := by
      rw [(next_moved n c).1]
      exact h
    -- the two cursors differ in their defects now, which have no part in the items
    rw [items_of_ne_eof h, items_of_ne_eof hm, (next_moved n c).1, found_moved, List.map_cons, ← ih,
      ← items_forget, (next_moved n c).2, items_forget]
    rfl

theorem remaining_moved (n : Nat) (c : Cursor) :
    (c.moved n).remaining = c.remaining.map (Token.respan (Span.shift n)) := by
  rw [remaining_eq, remaining_eq, items_moved, List.map_map, List.map_map]
  rfl

end Cursor

end Scriptlet
