import Scriptlet.Proofs.Token.Stream

/-!
# Tokens tile the source

Gaps and tokens take turns from the first byte of a source to the last (`Tiles`), and the text of
every token follows from the bytes it covers (`Spells`). In particular the text of a string is
stored exactly as it stands between the quotes.

The last point is not obvious. Illegal bytes are taken one by one, so a string may be looked for in
the middle of a character. But a quote is an ASCII byte, a stored text can be cut there, and what
stands between two quotes is a text of its own. So `tiles_remaining` carries the bytes that were
passed, and with them that the whole source is a stored text.
-/

namespace Scriptlet

open Text Lexeme

/-- How the text of a token of a kind follows from the bytes covered, with `rest` behind them. -/
def Spells (kind : Kind) (literal : String) (covered rest : List UInt8) : Prop :=
  match kind with
  | .string => quoteMark ∉ bytes literal ∧ (covered = quoteMark :: (bytes literal ++ [quoteMark])
      ∨ covered = quoteMark :: bytes literal ∧ rest = [])
  | .illegal => ∃ b, covered = [b] ∧ literal = String.ofList [Char.ofNat b.toNat]
  | _ => bytes literal = covered

/-- Gaps and tokens take turns in `source`, which stands `i` bytes behind the front. -/
inductive Tiles : Nat → List UInt8 → List Token → Prop where
  | done {i : Nat} {gap : List UInt8} (isGap : IsGap [] gap) : Tiles i gap []
  | token {i : Nat} {gap covered rest : List UInt8} {t : Token} {later : List Token}
      (isGap : IsGap (covered ++ rest) gap) (nonempty : covered ≠ [])
      (span : t.span = ⟨i + gap.length, covered.length⟩)
      (spells : Spells t.kind t.literal covered rest)
      (more : Tiles (i + gap.length + covered.length) rest later) :
      Tiles i (gap ++ (covered ++ rest)) (t :: later)

/-! ## One lexeme -/

theorem spells_of_ne {kind : Kind} {literal : String} {covered : List UInt8} (rest : List UInt8)
    (noString : kind ≠ .string) (legal : kind ≠ .illegal) (h : bytes literal = covered) :
    Spells kind literal covered rest := by
  unfold Spells
  split
  · exact absurd rfl noString
  · exact absurd rfl legal
  · exact h

theorem spells_plain {kind : Kind} {content : List UInt8} (rest : List UInt8)
    (noString : kind ≠ .string) (legal : kind ≠ .illegal) (ascii : ∀ b ∈ content, IsAscii b) :
    Spells kind (plain kind content).literal content rest := by
  refine spells_of_ne rest noString legal ?_
  rw [literal_plain legal ascii, bytes_ofByteValues ascii]

/-- Between the quotes of a stored text stands a text, so nothing in it is replaced. -/
theorem bytes_literal_string {l : Lexeme} (hk : l.kind = .string)
    (isText : ∃ inner, l.content = bytes inner) : bytes l.literal = l.content := by
  obtain ⟨inner, same⟩ := isText
  rw [literal_of_ne_illegal (by rw [hk]; decide), same, decodeLossy_bytes]

/-- A lexeme spells the bytes it covers. -/
theorem Lexeme.Recognized.spells {text : String} {front source : List UInt8} {l : Lexeme}
    (h : Recognized source l) (stored : bytes text = front ++ source) (notEnd : l.kind ≠ .eof) :
    ∃ covered rest, source = covered ++ rest ∧ covered ≠ [] ∧ l.length = covered.length
      ∧ Spells l.kind l.literal covered rest := by
  have isQuote : IsAscii quoteMark := by decide
  cases h with
  | eof => exact absurd rfl notEnd
  | @word word rest nonempty run =>
    exact ⟨word, rest, rfl, nonempty, rfl, spells_plain rest (ofWord_ne (by decide) _)
      (ofWord_ne (by decide) _) fun b hb => isAscii_of_isWordByte (run.inside b hb)⟩
  | @integer digits rest nonempty run =>
    exact ⟨digits, rest, rfl, nonempty, rfl, spells_plain rest nofun nofun
      fun b hb => isAscii_of_isDigit (run.inside b hb)⟩
  | @float digits fraction rest nonempty whole run =>
    refine ⟨digits ++ point :: fraction, rest, rfl, by simp, rfl,
      spells_plain rest nofun nofun ?_⟩
    intro b hb
    rcases List.mem_append.mp hb with hb | hb
    · exact isAscii_of_isDigit (whole b hb)
    rcases List.mem_cons.mp hb with rfl | hb
    · decide
    · exact isAscii_of_isDigit (run.inside b hb)
  | @closed content rest inside =>
    -- this is where it counts that the source is a stored text up to `front`
    have isText := exists_text_between isQuote isQuote stored
    have same : bytes (Lexeme.mk .string (content.length + 2) content false).literal = content :=
      bytes_literal_string rfl isText
    refine ⟨quoteMark :: (content ++ [quoteMark]), rest, by simp, by simp, by simp, ?_⟩
    rw [← same] at inside
    exact ⟨inside, .inl (by rw [same])⟩
  | @unclosed content inside =>
    have isText := exists_text_after isQuote stored
    have same : bytes (Lexeme.mk .string (content.length + 1) content true).literal = content :=
      bytes_literal_string rfl isText
    refine ⟨quoteMark :: content, [], by simp, by simp, rfl, ?_⟩
    rw [← same] at inside
    exact ⟨inside, .inr ⟨by rw [same], rfl⟩⟩
  | @symbol kind rest listed =>
    exact ⟨bytes kind.symbol, rest, rfl, bytes_symbol_ne_nil listed, rfl,
      spells_plain rest (ne_of_mem_symbols listed (by decide))
        (ne_of_mem_symbols listed (by decide)) (isAscii_of_mem_symbol listed)⟩
  | @illegal b rest => exact ⟨[b], rest, rfl, by simp, rfl, b, rfl, rfl⟩

/-! ## The whole stream -/

/-- The tokens in front of a cursor tile the bytes in front of it. -/
theorem Cursor.tiles_remaining {text : String} (c : Cursor) :
    ∀ front : List UInt8, bytes text = front ++ c.rest → c.exhausted = false →
      Tiles c.offset c.rest c.remaining := by
  induction c using items_induction with
  | eof c h =>
    intro front stored hc
    obtain ⟨gap, rest, l, same, isGap, -, recognized, step⟩ := next_of_open hc
    rw [remaining_of_eof h, same]
    rw [step] at h
    obtain ⟨rfl, -⟩ := recognized.of_eof h
    rw [List.append_nil]
    exact .done isGap
  | step c h ih =>
    intro front stored hc
    obtain ⟨gap, rest, l, same, isGap, -, recognized, step⟩ := next_of_open hc
    rw [remaining_of_ne_eof h]
    rw [step] at h ih ⊢
    -- the gap and the bytes of the token are put behind what was passed before
    have passed : bytes text = (front ++ gap) ++ rest := by rw [stored, same, List.append_assoc]
    obtain ⟨covered, behind, rfl, nonempty, hlen, spells⟩ := recognized.spells passed h
    have ahead := rest_past same hlen
    rw [same]
    refine .token isGap nonempty ?_ spells ?_
    · rw [token, hlen]
    · have goesOn : (c.past gap.length l).exhausted = false := beq_eq_false_iff_ne.mpr h
      have later := ih (front ++ gap ++ covered) (by rw [passed, ahead]; simp) goesOn
      rw [ahead] at later
      rw [← hlen]
      exact later

/-! ## Spans -/

/-- The bytes of a span. -/
def Span.slice (s : Span) (source : List UInt8) : List UInt8 :=
  (source.drop s.offset).take s.length

namespace Tiles

variable {i : Nat} {source : List UInt8} {tokens : List Token}

/-- All tokens of a tiling lie behind its front. -/
theorem le_offset (h : Tiles i source tokens) : ∀ t ∈ tokens, i ≤ t.span.offset := by
  induction h with
  | done => simp
  | token isGap nonempty span spells more ih =>
    intro u hu
    rcases List.mem_cons.mp hu with rfl | hu
    · rw [span]
      exact Nat.le_add_right _ _
    · have := ih u hu
      omega

/-- Every token begins where the ones in front of it have ended, or later. -/
theorem pairwise_spans (h : Tiles i source tokens) : tokens.Pairwise fun t u =>
    t.span.offset < u.span.offset ∧ t.span.stop ≤ u.span.offset := by
  induction h with
  | done => exact .nil
  | @token i gap covered rest t later isGap nonempty span spells more ih =>
    refine List.pairwise_cons.mpr ⟨?_, ih⟩
    intro u hu
    have behind := more.le_offset u hu
    have := List.length_pos_iff.mpr nonempty
    simp only [Span.stop, span]
    omega

/-- Every token covers at least one byte and spells what it covers. -/
theorem spells_slice (h : Tiles i source tokens) :
    ∀ front : List UInt8, front.length = i → ∀ t ∈ tokens, 0 < t.span.length
      ∧ t.span.stop ≤ (front ++ source).length
      ∧ Spells t.kind t.literal (t.span.slice (front ++ source))
          ((front ++ source).drop t.span.stop) := by
  induction h with
  | done => simp
  | @token i gap covered rest t later isGap nonempty span spells more ih =>
    intro front hfront u hu
    have assoc : front ++ (gap ++ (covered ++ rest)) = (front ++ gap) ++ (covered ++ rest) := by
      rw [List.append_assoc]
    have hfront' : (front ++ gap).length = i + gap.length := by rw [List.length_append, hfront]
    rcases List.mem_cons.mp hu with rfl | hu
    · rw [Span.stop, Span.slice, span, assoc, ← hfront']
      refine ⟨List.length_pos_iff.mpr nonempty, by simp; omega, ?_⟩
      rw [List.drop_left, List.take_left, ← List.drop_drop, List.drop_left, List.drop_left]
      exact spells
    · have later := ih (front ++ gap ++ covered) (by rw [List.length_append, hfront']) u hu
      rw [assoc, ← List.append_assoc]
      exact later

end Tiles

/-! ## The end of the source -/

theorem Cursor.skip_next_of_eof {c : Cursor} (h : c.exhausted = true) (n : Nat) : c.skip n = c := by
  induction n with
  | zero => rfl
  | succ n ih => rw [skip, next_of_exhausted h, ih]

/-- Behind its last token a cursor hands out the place where the source ends, for ever. -/
theorem Cursor.next_skip (c : Cursor) :
    ∀ n, (c.skip n).next.1 = c.remaining.getD n (.eof ⟨c.stop, 0⟩) := by
  induction c using items_induction with
  | eof c h =>
    intro n
    rw [remaining_of_eof h, List.getD_nil]
    cases n with
    | zero => exact (next_of_eof h).1
    | succ n =>
      rw [skip, skip_next_of_eof (next_of_eof h).2, next_of_exhausted (next_of_eof h).2, stop_next]
  | step c h ih =>
    intro n
    rw [remaining_of_ne_eof h]
    cases n with
    | zero => rfl
    | succ n => rw [skip, ih, stop_next, List.getD_cons_succ]

/-- The tokens of a text before its end. -/
def tokens (text : String) : List Token := (Cursor.ofText text).remaining

theorem tokens_eq (text : String) :
    tokens text = (Cursor.ofText text).items.map Cursor.Item.token := Cursor.remaining_eq _

theorem mem_tokens_of_mem {text : String} {i : Cursor.Item} (h : i ∈ (Cursor.ofText text).items) :
    i.token ∈ tokens text := by
  rw [tokens_eq]
  exact List.mem_map_of_mem h

/-- The tokens of a text tile its bytes. -/
theorem tiles_tokens (text : String) : Tiles 0 (bytes text) (tokens text) :=
  (Cursor.ofText text).tiles_remaining [] rfl rfl

/-- No two tokens of a text are equal. -/
theorem nodup_tokens (text : String) : (tokens text).Nodup := by
  refine (tiles_tokens text).pairwise_spans.imp ?_
  rintro t _ behind rfl
  exact absurd behind.1 (Nat.lt_irrefl _)

/-- The end of a text is not among its tokens. -/
theorem kind_ne_eof_of_mem_tokens {text : String} {t : Token} (h : t ∈ tokens text) :
    t.kind ≠ .eof := by
  rw [tokens_eq] at h
  obtain ⟨i, hi, rfl⟩ := List.mem_map.mp h
  exact (Cursor.lexed_of_mem_items _ i hi).ne_eof

/--
**The tokens of a text tile its bytes, and each spells what it covers.** Gaps and tokens take turns
from the first byte to the last, so the spans are not empty, lie in the source, grow and do not
overlap. The end is handed out behind the last token, again and again, as the empty span right
behind the source.
-/
theorem tokens_tile_source (text : String) :
    Tiles 0 (bytes text) (tokens text)
      ∧ (tokens text).Pairwise (fun t u =>
          t.span.offset < u.span.offset ∧ t.span.stop ≤ u.span.offset)
      ∧ (∀ t ∈ tokens text, 0 < t.span.length ∧ t.span.stop ≤ (bytes text).length
          ∧ Spells t.kind t.literal (t.span.slice (bytes text)) ((bytes text).drop t.span.stop))
      ∧ ∀ n, ((Cursor.ofText text).skip n).next.1
          = (tokens text).getD n (.eof ⟨(bytes text).length, 0⟩) := by
  have tiled := tiles_tokens text
  refine ⟨tiled, tiled.pairwise_spans, tiled.spells_slice [] rfl, ?_⟩
  intro n
  rw [Cursor.next_skip, Cursor.stop, tokens]
  simp [Cursor.ofText, Cursor.ofBytes]

end Scriptlet
