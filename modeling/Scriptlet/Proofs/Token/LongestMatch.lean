import Scriptlet.Proofs.Token.Covering
import Scriptlet.Proofs.Token.Insertion

/-!
# Longest matches

`LongestMatch` says of one token, by its bytes and those behind it, that it is the longest match
where it stands. The tokens of a text are the only way to cut its bytes into gaps and longest
matches (`tokens_iff_longest_match`).

Such a cut is forced from the front on. A blank or two slashes begin a gap, since no token begins
with a blank and no `/` is followed by another, and at all other bytes a token has to begin. Its
first byte says of which sort it is, and then it is the lexeme that is recognized there
(`LongestMatch.exists_recognized`).
-/

namespace Scriptlet

open Text Lexeme

/-- The bytes `covered` are a token of a kind, and `rest` is behind them. -/
structure LongestMatch (kind : Kind) (covered rest : List UInt8) : Prop where
  /-- It is one of its kind. -/
  covers : kind.Covers covered
  /-- From a letter or `_` on it goes as far as there are word bytes. It is the keyword that it
  spells, and an identifier if it spells none. -/
  word : ∀ b ∈ covered.head?, isWordByte b = true → LongestRun isWordByte covered rest
    ∧ (∀ entry ∈ Kind.keywords, kind = entry.2 ↔ covered = bytes entry.1)
    ∧ ((∀ entry ∈ Kind.keywords, covered ≠ bytes entry.1) → kind = .identifier)
  /-- From a digit on it is a float if a point stands right behind the digits, and takes in all
  digits behind the point. Otherwise it is an integer and the digits are all of it. -/
  number : ∀ b ∈ covered.head?, isDigit b = true → ∃ digits behind,
    covered ++ rest = digits ++ behind ∧ LongestRun isDigit digits behind
      ∧ (behind.head? = some point → kind = .float
        ∧ ∃ fraction, covered = digits ++ point :: fraction ∧ LongestRun isDigit fraction rest)
      ∧ (behind.head? ≠ some point → kind = .integer ∧ covered = digits)
  /-- An operator or a punctuation mark is its symbol. -/
  symbol : kind ∈ symbols → covered = bytes kind.symbol
  /-- Of `=` and `!` with another `=` behind it both bytes belong to the token. -/
  eq : ∀ tail, covered ++ rest = bytes "==" ++ tail → kind = .eq
  neq : ∀ tail, covered ++ rest = bytes "!=" ++ tail → kind = .neq
  /-- Two slashes would begin a comment. -/
  slash : kind = .slash → rest.head? ≠ some Gap.slash
  /-- A string has no quote in it, and ends with one unless the source ends before. -/
  string : kind = .string → ∃ content, quoteMark ∉ content
    ∧ (covered = quoteMark :: (content ++ [quoteMark]) ∨ covered = quoteMark :: content ∧ rest = [])
  /-- Illegal are the bytes with which no other token can begin, but for blanks. -/
  illegal : kind = .illegal ↔ ∃ b, covered = [b] ∧ Gap.isBlank b = false
    ∧ ∀ other tail, Kind.Covers other (b :: tail) → other = .illegal

/-! ## Lexemes are longest matches -/

namespace Lexeme.Recognized

variable {covered rest source : List UInt8} {l : Lexeme}

/-- A lexeme covers what a token of its kind may cover. -/
theorem covers (h : Recognized (covered ++ rest) l) (length : l.length = covered.length)
    (notEnd : l.kind ≠ .eof) : l.kind.Covers covered := by
  generalize whole : covered ++ rest = source at h
  cases h with
  | eof => exact absurd rfl notEnd
  | word nonempty run =>
    obtain ⟨rfl, -⟩ := List.append_inj whole length.symm
    exact Kind.covers_word nonempty run.inside
  | integer nonempty run =>
    obtain ⟨rfl, -⟩ := List.append_inj whole length.symm
    exact .integer nonempty run.inside
  | float nonempty inside run =>
    obtain ⟨rfl, -⟩ := List.append_inj whole length.symm
    exact .float nonempty inside run.inside
  | @closed content behind inside =>
    have whole : covered ++ rest = quoteMark :: (content ++ [quoteMark]) ++ behind := by
      simpa using whole
    obtain ⟨rfl, -⟩ := List.append_inj whole (by rw [← length]; simp)
    exact .closed inside
  | @unclosed content inside =>
    have whole : covered ++ rest = quoteMark :: content ++ [] := by simpa using whole
    obtain ⟨rfl, -⟩ := List.append_inj whole length.symm
    exact .unclosed inside
  | symbol listed =>
    obtain ⟨rfl, -⟩ := List.append_inj whole length.symm
    exact .symbol listed
  | @illegal b behind =>
    have whole : covered ++ rest = [b] ++ behind := whole
    obtain ⟨rfl, -⟩ := List.append_inj whole length.symm
    exact .illegal b

/-- The kind of a word tells which word it is. -/
theorem word_match (h : Recognized (covered ++ rest) l) (length : l.length = covered.length)
    {b : UInt8} (first : b ∈ covered.head?) (hb : isWordByte b = true) :
    LongestRun isWordByte covered rest
      ∧ (∀ entry ∈ Kind.keywords, l.kind = entry.2 ↔ covered = bytes entry.1)
      ∧ ((∀ entry ∈ Kind.keywords, covered ≠ bytes entry.1) → l.kind = .identifier) := by
  obtain ⟨tail, rfl⟩ := List.head?_eq_some_iff.mp first
  rw [List.cons_append] at h
  obtain ⟨word, behind, same, run, rfl⟩ := h.of_isWordByte hb
  rw [← List.cons_append] at same
  obtain ⟨rfl, rfl⟩ := List.append_inj same length.symm
  have ascii := bytes_ofByteValues fun x hx => isAscii_of_isWordByte (run.inside x hx)
  refine ⟨run, ?_, Kind.ofWord_free run.inside⟩
  rintro ⟨word, kind⟩ listed
  constructor
  · intro hk
    have hk : Kind.ofWord (ofByteValues (b :: tail)) = kind := hk
    have reserved : Kind.ofWord (ofByteValues (b :: tail)) ≠ .identifier := by
      rw [hk]
      exact (Kind.ofWord_of_mem_keywords listed).2
    -- both words are the symbol of the kind
    have spelled := Kind.symbol_of_mem_keywords (mem_keywords_of_ofWord reserved)
    rw [hk, Kind.symbol_of_mem_keywords listed] at spelled
    rw [spelled, ascii]
  · intro same
    have kind := Kind.ofWord_bytes listed
    rwa [← same] at kind

theorem number_match (h : Recognized (covered ++ rest) l) (length : l.length = covered.length)
    {b : UInt8} (first : b ∈ covered.head?) (hb : isDigit b = true) : ∃ digits behind,
      covered ++ rest = digits ++ behind ∧ LongestRun isDigit digits behind
        ∧ (behind.head? = some point → l.kind = .float
          ∧ ∃ fraction, covered = digits ++ point :: fraction ∧ LongestRun isDigit fraction rest)
        ∧ (behind.head? ≠ some point → l.kind = .integer ∧ covered = digits) := by
  obtain ⟨tail, rfl⟩ := List.head?_eq_some_iff.mp first
  rw [List.cons_append] at h
  obtain ⟨digits, behind, same, run, sort⟩ := h.of_isDigit hb
  rw [← List.cons_append] at same
  refine ⟨digits, behind, same, run, ?_⟩
  rcases sort with ⟨noPoint, rfl⟩ | ⟨fraction, after, rfl, run', rfl⟩
  · exact ⟨fun hp => absurd hp noPoint,
      fun _ => ⟨rfl, (List.append_inj same length.symm).1⟩⟩
  · have same : b :: tail ++ rest = digits ++ point :: fraction ++ after := by
      rw [List.append_assoc]
      exact same
    obtain ⟨parts, rfl⟩ := List.append_inj same length.symm
    exact ⟨fun _ => ⟨rfl, fraction, parts, run'⟩, fun noPoint => absurd rfl noPoint⟩

theorem string_match (h : Recognized (covered ++ rest) l) (length : l.length = covered.length)
    (hk : l.kind = .string) : ∃ content, quoteMark ∉ content
      ∧ (covered = quoteMark :: (content ++ [quoteMark])
        ∨ covered = quoteMark :: content ∧ rest = []) := by
  generalize whole : covered ++ rest = source at h
  cases h with
  | @closed content behind inside =>
    have whole : covered ++ rest = quoteMark :: (content ++ [quoteMark]) ++ behind := by
      simpa using whole
    obtain ⟨rfl, -⟩ := List.append_inj whole (by rw [← length]; simp)
    exact ⟨content, inside, .inl rfl⟩
  | @unclosed content inside =>
    have whole : covered ++ rest = quoteMark :: content ++ [] := by simpa using whole
    obtain ⟨rfl, rfl⟩ := List.append_inj whole length.symm
    exact ⟨content, inside, .inr ⟨rfl, rfl⟩⟩
  | word => exact absurd hk (ofWord_ne (by decide) _)
  | symbol listed => exact absurd hk (ne_of_mem_symbols listed (by decide))
  | eof | integer | float | illegal => cases hk

theorem illegal_match (h : Recognized (covered ++ rest) l) (length : l.length = covered.length)
    (begins : Gap.length (covered ++ rest) = 0) (hk : l.kind = .illegal) : ∃ b, covered = [b]
      ∧ Gap.isBlank b = false ∧ ∀ other tail, Kind.Covers other (b :: tail) → other = .illegal := by
  generalize whole : covered ++ rest = source at h begins
  cases h with
  | @illegal b behind noWord noDigit noQuote noSymbol =>
    have whole : covered ++ rest = [b] ++ behind := whole
    obtain ⟨rfl, -⟩ := List.append_inj whole length.symm
    refine ⟨b, rfl, ?_, fun other tail covers => ?_⟩
    · rw [← Bool.not_eq_true]
      intro blank
      rw [Gap.length_blank blank] at begins
      cases begins
    · obtain ⟨d, _, same, sort⟩ := covers.exists_first
      obtain ⟨rfl, -⟩ := List.cons.inj same
      rcases sort with illegal | word | digit | ⟨-, quote⟩ | ⟨listed, symbol⟩
      · exact illegal
      · rw [noWord] at word
        cases word
      · rw [noDigit] at digit
        cases digit
      · exact absurd quote noQuote
      · exact absurd symbol (noSymbol _ listed)
  | word => exact absurd hk (ofWord_ne (by decide) _)
  | symbol listed => exact absurd hk (ne_of_mem_symbols listed (by decide))
  | eof | integer | float | closed | unclosed => cases hk

/-- In front of another slash a slash would not be a lexeme. -/
theorem slash_match (h : Recognized (covered ++ rest) l) (length : l.length = covered.length)
    (begins : Gap.length (covered ++ rest) = 0) (hk : l.kind = .slash) :
    rest.head? ≠ some Gap.slash := by
  intro follows
  obtain ⟨tail, rfl⟩ := List.head?_eq_some_iff.mp follows
  have covers := h.covers length (by rw [hk]; decide)
  have same : covered = bytes Kind.slash.symbol := by
    rw [← hk]
    exact covers.of_mem_symbols (by rw [hk]; decide)
  rw [same] at begins
  have comment : Gap.length (Gap.slash :: Gap.slash :: tail) = 0 := begins
  rw [Gap.length_comment] at comment
  cases comment

theorem pair_match {kind : Kind} (h : Recognized (covered ++ rest) l)
    (pair : kind = .eq ∨ kind = .neq) {tail : List UInt8}
    (same : covered ++ rest = bytes kind.symbol ++ tail) : l.kind = kind := by
  rw [same] at h
  rw [h.of_pair pair]
  rfl

/-- **The lexeme in front of a source is a longest match.** -/
theorem longestMatch (h : Recognized (covered ++ rest) l) (length : l.length = covered.length)
    (notEnd : l.kind ≠ .eof) (begins : Gap.length (covered ++ rest) = 0) :
    LongestMatch l.kind covered rest where
  covers := h.covers length notEnd
  word _ := h.word_match length
  number _ := h.number_match length
  symbol := (h.covers length notEnd).of_mem_symbols
  eq _ := h.pair_match (.inl rfl)
  neq _ := h.pair_match (.inr rfl)
  slash := h.slash_match length begins
  string := h.string_match length
  illegal := by
    refine ⟨h.illegal_match length begins, ?_⟩
    rintro ⟨b, rfl, -, none⟩
    exact none _ _ (h.covers length notEnd)

end Lexeme.Recognized

/-! ## Longest matches are lexemes -/

/-- A run with a byte of its class in front is not empty. -/
theorem Lexeme.LongestRun.ne_nil {isIn : UInt8 → Bool} {run rest : List UInt8} {b : UInt8}
    (h : LongestRun isIn run rest) (first : b ∈ (run ++ rest).head?) (hb : isIn b = true) :
    run ≠ [] := by
  rintro rfl
  rw [h.outside b first] at hb
  cases hb

namespace LongestMatch

variable {kind : Kind} {b : UInt8} {tail covered rest : List UInt8}

theorem recognized_of_isWordByte (h : LongestMatch kind (b :: tail) rest)
    (hb : isWordByte b = true) :
    Recognized (b :: tail ++ rest) (plain kind (b :: tail)) := by
  obtain ⟨run, reserved, free⟩ := h.word b rfl hb
  have spelled : kind = Kind.ofWord (ofByteValues (b :: tail)) := by
    by_cases hk : Kind.ofWord (ofByteValues (b :: tail)) = .identifier
    · rw [hk]
      refine free ?_
      rintro ⟨word, keyword⟩ listed same
      rw [same, Kind.ofWord_bytes listed] at hk
      exact (Kind.ofWord_of_mem_keywords listed).2 hk
    · refine (reserved _ (mem_keywords_of_ofWord hk)).mpr ?_
      rw [bytes_ofByteValues fun b hb => isAscii_of_isWordByte (run.inside b hb)]
  rw [spelled]
  exact .word (List.cons_ne_nil b tail) run

theorem recognized_of_isDigit (h : LongestMatch kind (b :: tail) rest) (hb : isDigit b = true) :
    Recognized (b :: tail ++ rest) (plain kind (b :: tail)) := by
  obtain ⟨digits, behind, same, run, pointed, plain⟩ := h.number b rfl hb
  have nonempty : digits ≠ [] := run.ne_nil (by rw [← same]; rfl) hb
  by_cases hp : behind.head? = some point
  · obtain ⟨rfl, fraction, covered, run'⟩ := pointed hp
    rw [covered]
    exact .float nonempty run.inside run'
  · obtain ⟨rfl, rfl⟩ := plain hp
    rw [List.append_cancel_left same]
    exact .integer nonempty run hp

theorem recognized_of_quote (h : LongestMatch .string covered rest) :
    ∃ l, Recognized (covered ++ rest) l ∧ l.kind = .string ∧ l.length = covered.length := by
  obtain ⟨content, inside, rfl | ⟨rfl, rfl⟩⟩ := h.string rfl
  · refine ⟨⟨.string, content.length + 2, content, false⟩, ?_, rfl, by simp⟩
    rw [List.cons_append, List.append_assoc, List.singleton_append]
    exact .closed inside
  · rw [List.append_nil]
    exact ⟨_, .unclosed inside, rfl, rfl⟩

theorem recognized_of_symbol (h : LongestMatch kind covered rest) (listed : kind ∈ symbols) :
    Recognized (covered ++ rest) (plain kind covered) := by
  rw [h.symbol listed]
  refine .symbol listed ?_
  -- in front of `=` there would be a symbol of two bytes
  rintro (rfl | rfl) hs
  · obtain ⟨tail, rfl⟩ := List.head?_eq_some_iff.mp hs
    cases h.eq tail (by rw [h.symbol listed]; rfl)
  · obtain ⟨tail, rfl⟩ := List.head?_eq_some_iff.mp hs
    cases h.neq tail (by rw [h.symbol listed]; rfl)

theorem recognized_of_illegal (h : LongestMatch .illegal covered rest) :
    Recognized (covered ++ rest) (plain .illegal covered) := by
  obtain ⟨b, rfl, -, none⟩ := h.illegal.mp rfl
  refine .illegal ?_ ?_ ?_ ?_
  · rw [← Bool.not_eq_true]
    intro hb
    have word := Kind.covers_word (List.cons_ne_nil b []) (List.forall_mem_singleton.mpr hb)
    exact ofWord_ne (by decide) _ (none _ _ word)
  · rw [← Bool.not_eq_true]
    intro hb
    cases none _ _ (.integer (List.cons_ne_nil b []) (List.forall_mem_singleton.mpr hb))
  · rintro rfl
    cases none .string [] (.unclosed List.not_mem_nil)
  · intro kind listed hs
    obtain ⟨tail, same⟩ := List.head?_eq_some_iff.mp hs
    have symbol := none kind tail (by rw [← same]; exact .symbol listed)
    exact ne_of_mem_symbols listed (by decide) symbol

/-- No gap begins where a longest match begins. -/
theorem begins (h : LongestMatch kind covered rest) : Gap.length (covered ++ rest) = 0 := by
  have noBlank : ∀ k ∈ symbols, ∀ b ∈ (bytes k.symbol).head?, Gap.isBlank b = false := by
    decide +kernel
  have noSlash : ∀ k ∈ symbols, Gap.slash ∈ (bytes k.symbol).head? → k = .slash := by
    decide +kernel
  obtain ⟨b, tail, rfl, sort⟩ := h.covers.exists_first
  refine Gap.length_of_token ?_ ?_
  · rcases sort with rfl | hw | hd | ⟨-, rfl⟩ | ⟨listed, hs⟩
    · obtain ⟨d, same, blank, -⟩ := h.illegal.mp rfl
      rwa [(List.cons.inj same).1]
    · exact (noGap_of_isWordByte b hw).1
    · exact (noGap_of_isDigit b hd).1
    · rfl
    · exact noBlank kind listed b hs
  · rcases sort with rfl | hw | hd | ⟨-, rfl⟩ | ⟨listed, hs⟩
    · rintro rfl
      obtain ⟨d, same, -, none⟩ := h.illegal.mp rfl
      obtain ⟨rfl, -⟩ := List.cons.inj same
      cases none .slash [] (.symbol (by decide))
    · exact fun hb => absurd hb (noGap_of_isWordByte b hw).2
    · exact fun hb => absurd hb (noGap_of_isDigit b hd).2
    · exact fun hb => absurd hb (by decide)
    · rintro rfl
      obtain rfl := noSlash kind listed hs
      obtain ⟨-, rfl⟩ := List.cons.inj (h.symbol listed)
      exact h.slash rfl

/-- **A longest match is the lexeme in front of the source.** -/
theorem exists_recognized (h : LongestMatch kind covered rest) :
    ∃ l, Recognized (covered ++ rest) l ∧ l.kind = kind ∧ l.length = covered.length := by
  obtain ⟨b, tail, rfl, sort⟩ := h.covers.exists_first
  rcases sort with rfl | hw | hd | ⟨rfl, -⟩ | ⟨listed, -⟩
  · exact ⟨_, h.recognized_of_illegal, rfl, rfl⟩
  · exact ⟨_, h.recognized_of_isWordByte hw, rfl, rfl⟩
  · exact ⟨_, h.recognized_of_isDigit hd, rfl, rfl⟩
  · exact h.recognized_of_quote
  · exact ⟨_, h.recognized_of_symbol listed, rfl, rfl⟩

end LongestMatch

/-! ## The tokens of a text -/

/-- The tokens in front of a cursor are the lexemes in their places. -/
theorem Cursor.exists_recognized_of_mem {source : List UInt8} (c : Cursor) :
    c.exhausted = false → c.rest = source.drop c.offset → ∀ t ∈ c.remaining,
      ∃ l, Recognized (source.drop t.span.offset) l ∧ Gap.length (source.drop t.span.offset) = 0
        ∧ l.kind = t.kind ∧ l.length = t.span.length ∧ t.kind ≠ .eof := by
  induction c using items_induction with
  | eof c h =>
    intro _ _ t ht
    rw [remaining_of_eof h] at ht
    exact absurd ht List.not_mem_nil
  | step c h ih =>
    intro hc place t ht
    obtain ⟨gap, rest, l, same, -, begins, recognized, step⟩ := next_of_open hc
    rw [remaining_of_ne_eof h] at ht
    rw [step] at h ih ht
    have ahead : source.drop (c.offset + gap.length) = rest := by
      rw [← List.drop_drop, ← place, same, List.drop_left]
    rcases List.mem_cons.mp ht with rfl | ht
    · rw [token, ahead]
      exact ⟨l, recognized, begins, rfl, rfl, h⟩
    · refine ih (beq_eq_false_iff_ne.mpr h) ?_ t ht
      rw [past, place, List.drop_drop, Nat.add_assoc]

/-- The text of a token follows from its kind and the bytes that it covers. -/
theorem Spells.unique {kind : Kind} {literal literal' : String} {covered rest : List UInt8}
    (h : Spells kind literal covered rest) (h' : Spells kind literal' covered rest) :
    literal = literal' := by
  cases kind with
  | string =>
    obtain ⟨inside, closed | ⟨unclosed, -⟩⟩ := h
    all_goals obtain ⟨inside', closed' | ⟨unclosed', -⟩⟩ := h'
    · exact bytes_injective (List.append_cancel_right (List.cons.inj (closed.symm.trans closed')).2)
    · exact absurd (by simp [← (List.cons.inj (closed.symm.trans unclosed')).2]) inside'
    · exact absurd (by simp [(List.cons.inj (unclosed.symm.trans closed')).2]) inside
    · exact bytes_injective (List.cons.inj (unclosed.symm.trans unclosed')).2
  | illegal =>
    obtain ⟨b, rfl, rfl⟩ := h
    obtain ⟨d, same, rfl⟩ := h'
    rw [(List.cons.inj same).1]
  | _ => exact bytes_injective (Eq.trans h (Eq.symm h'))

/-- Every tiling by longest matches is what a cursor hands out. -/
theorem Tiles.eq_remaining {text : String} {i : Nat} {source : List UInt8} {ts : List Token}
    (h : Tiles i source ts) : ∀ c : Cursor, c.StandsIn text → c.rest = source → c.offset = i →
      (∀ t ∈ ts, LongestMatch t.kind (t.span.slice (bytes text))
        ((bytes text).drop t.span.stop)) → ts = c.remaining := by
  induction h with
  | done isGap =>
    intro c standsIn same _ _
    rw [Cursor.remaining_eq, Cursor.items_of_isGap standsIn.goesOn (same ▸ isGap), List.map_nil]
  | @token i gap covered rest t later isGap nonempty span spells more ih =>
    rintro c standsIn same rfl longest
    obtain ⟨front, stored, place⟩ := standsIn.stored
    have parts : bytes text = (front ++ gap) ++ (covered ++ rest) := by
      rw [stored, same, List.append_assoc]
    have place' : (front ++ gap).length = c.offset + gap.length := by
      rw [List.length_append, place]
    have slice : t.span.slice (bytes text) = covered := by
      rw [Span.slice, span, parts, ← place', List.drop_left, List.take_left]
    have behind : (bytes text).drop t.span.stop = rest := by
      rw [Span.stop, span, parts, ← place', ← List.drop_drop, List.drop_left, List.drop_left]
    -- the next token of the cursor is the lexeme that the first token of the tiling has to be
    have first := longest t List.mem_cons_self
    rw [slice, behind] at first
    obtain ⟨l, recognized, kind, hlen⟩ := first.exists_recognized
    have step := Cursor.next_of_recognized standsIn.goesOn same isGap first.begins recognized
    have notEnd : l.kind ≠ .eof := fun atEnd =>
      nonempty (List.append_eq_nil_iff.mp (recognized.of_eof atEnd).1).1
    have notEnd' : c.next.1.kind ≠ .eof := by rwa [step]
    obtain ⟨covered', rest', cut, -, hlen', spells'⟩ := recognized.spells parts notEnd
    obtain ⟨rfl, rfl⟩ := List.append_inj cut (hlen.symm.trans hlen')
    have literal : l.literal = t.literal := by
      rw [kind] at spells'
      exact spells'.unique spells
    have token : c.next.1 = t := by
      rw [step, Cursor.token, kind, literal, hlen, ← span]
    have rest_next : c.next.2.rest = rest := by rw [step]; exact Cursor.rest_past same hlen
    have offset_next : c.next.2.offset = c.offset + gap.length + covered.length := by
      rw [step, Cursor.past, hlen]
    rw [Cursor.remaining_of_ne_eof notEnd', token, ih c.next.2 (standsIn.next notEnd') rest_next
      offset_next fun u hu => longest u (List.mem_cons_of_mem t hu)]

/--
**The tokens of a text are the longest matches.** They are the only way to cut the bytes of the text
into gaps and tokens so that each token is the longest match where it stands, and no bytes that
begin where one of them begins and go on for longer are a token of any kind.
-/
theorem tokens_iff_longest_match (text : String) :
    (∀ ts, (Tiles 0 (bytes text) ts ∧ ∀ t ∈ ts, LongestMatch t.kind (t.span.slice (bytes text))
        ((bytes text).drop t.span.stop)) ↔ ts = tokens text)
      ∧ ∀ t ∈ tokens text, ∀ kind run, Kind.Covers kind run →
          run <+: (bytes text).drop t.span.offset → run.length ≤ t.span.length := by
  have place : (Cursor.ofText text).rest = (bytes text).drop (Cursor.ofText text).offset := rfl
  have lexeme := (Cursor.ofText text).exists_recognized_of_mem rfl place
  refine ⟨fun ts => ⟨fun ⟨tiled, longest⟩ =>
    tiled.eq_remaining (Cursor.ofText text) (Cursor.standsIn_ofText text) rfl rfl longest, ?_⟩, ?_⟩
  · rintro rfl
    refine ⟨tiles_tokens text, fun t ht => ?_⟩
    obtain ⟨l, recognized, begins, kind, hlen, notEnd⟩ := lexeme t ht
    have parts : (bytes text).drop t.span.offset
        = t.span.slice (bytes text) ++ (bytes text).drop t.span.stop := by
      rw [Span.slice, Span.stop, ← List.drop_drop, List.take_append_drop]
    have covered : (t.span.slice (bytes text)).length = t.span.length := by
      have inside : t.span.stop ≤ (bytes text).length :=
        ((tiles_tokens text).spells_slice [] rfl t ht).2.1
      rw [Span.stop] at inside
      rw [Span.slice, List.length_take, List.length_drop]
      omega
    rw [parts] at recognized begins
    rw [← kind] at notEnd ⊢
    exact recognized.longestMatch (hlen.trans covered.symm) notEnd begins
  · intro t ht kind run covers isPrefix
    obtain ⟨l, recognized, -, -, hlen, -⟩ := lexeme t ht
    rw [← hlen]
    exact recognized.longest covers isPrefix

end Scriptlet
