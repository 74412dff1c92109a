import Scriptlet.Proofs.Token.Completeness

/-!
# What tokens of a kind may cover

`Kind.Covers` says which bytes a token of a kind may stand for, without a look at what follows them.
Many bytes can be cut into tokens in several ways: `letter` begins with the keyword `let`, and `1.5`
with an integer. The lexeme in front of a source is the longest of all (`Recognized.longest`).

The first byte of a source decides of which sort its lexeme is. There is only one lexeme, so for
each sort it is enough to name one (`Recognized.of_isWordByte`, `Recognized.of_isDigit`,
`Recognized.of_quote`).
-/

namespace Scriptlet

open Text Lexeme

/-- The bytes that a token of a kind may cover. -/
inductive Kind.Covers : Kind → List UInt8 → Prop where
  | keyword {word : String} {kind : Kind} (listed : (word, kind) ∈ keywords) :
      Covers kind (bytes word)
  | identifier {word : List UInt8} (nonempty : word ≠ [])
      (inside : ∀ b ∈ word, isWordByte b = true)
      (free : ∀ entry ∈ keywords, word ≠ bytes entry.1) : Covers .identifier word
  | integer {digits : List UInt8} (nonempty : digits ≠ [])
      (inside : ∀ b ∈ digits, isDigit b = true) : Covers .integer digits
  | float {digits fraction : List UInt8} (nonempty : digits ≠ [])
      (whole : ∀ b ∈ digits, isDigit b = true) (decimals : ∀ b ∈ fraction, isDigit b = true) :
      Covers .float (digits ++ point :: fraction)
  | closed {content : List UInt8} (inside : quoteMark ∉ content) :
      Covers .string (quoteMark :: (content ++ [quoteMark]))
  | unclosed {content : List UInt8} (inside : quoteMark ∉ content) :
      Covers .string (quoteMark :: content)
  | symbol {kind : Kind} (listed : kind ∈ symbols) : Covers kind (bytes kind.symbol)
  | illegal (b : UInt8) : Covers .illegal [b]

/-- A reserved word is stored as word bytes with its own values. -/
theorem keyword_bytes : ∀ entry ∈ Kind.keywords, bytes entry.1 ≠ []
    ∧ (∀ b ∈ bytes entry.1, isWordByte b = true) ∧ ofByteValues (bytes entry.1) = entry.1 := by
  decide +kernel

namespace Kind.Covers

variable {kind : Kind} {covered : List UInt8}

/-- A symbol covers nothing but itself. -/
theorem of_mem_symbols (h : kind.Covers covered) (listed : kind ∈ symbols) :
    covered = bytes kind.symbol := by
  have notReserved : ∀ entry ∈ keywords, entry.2 ∉ symbols := by decide
  cases h with
  | symbol => rfl
  | keyword reserved => exact absurd listed (notReserved _ reserved)
  | identifier | integer | float | closed | unclosed | illegal => exact absurd listed (by decide)

/-- By its first byte a token is a word, a number, a string or a symbol, unless it is illegal. -/
theorem exists_first (h : kind.Covers covered) : ∃ b tail, covered = b :: tail
    ∧ (kind = .illegal ∨ isWordByte b = true ∨ isDigit b = true ∨ kind = .string ∧ b = quoteMark
      ∨ kind ∈ symbols ∧ (bytes kind.symbol).head? = some b) := by
  cases h with
  | keyword listed =>
    obtain ⟨nonempty, inside, -⟩ := keyword_bytes _ listed
    obtain ⟨b, tail, same⟩ := List.exists_cons_of_ne_nil nonempty
    exact ⟨b, tail, same, .inr (.inl (inside b (by simp [same])))⟩
  | identifier nonempty inside =>
    obtain ⟨b, tail, rfl⟩ := List.exists_cons_of_ne_nil nonempty
    exact ⟨b, tail, rfl, .inr (.inl (inside b List.mem_cons_self))⟩
  | integer nonempty inside =>
    obtain ⟨b, tail, rfl⟩ := List.exists_cons_of_ne_nil nonempty
    exact ⟨b, tail, rfl, .inr (.inr (.inl (inside b List.mem_cons_self)))⟩
  | float nonempty whole =>
    obtain ⟨b, tail, rfl⟩ := List.exists_cons_of_ne_nil nonempty
    exact ⟨b, _, rfl, .inr (.inr (.inl (whole b List.mem_cons_self)))⟩
  | closed | unclosed => exact ⟨_, _, rfl, .inr (.inr (.inr (.inl ⟨rfl, rfl⟩)))⟩
  | symbol listed =>
    obtain ⟨b, tail, same⟩ := List.exists_cons_of_ne_nil (bytes_symbol_ne_nil listed)
    exact ⟨b, tail, same, .inr (.inr (.inr (.inr ⟨listed, by rw [same]; rfl⟩)))⟩
  | illegal b => exact ⟨b, [], rfl, .inl rfl⟩

end Kind.Covers

/-! ## Words -/

/-- Word bytes are a keyword or an identifier. -/
theorem Kind.covers_word {word : List UInt8} (nonempty : word ≠ [])
    (inside : ∀ b ∈ word, isWordByte b = true) :
    (Kind.ofWord (ofByteValues word)).Covers word := by
  by_cases hk : Kind.ofWord (ofByteValues word) = .identifier
  · rw [hk]
    refine .identifier nonempty inside ?_
    rintro ⟨text, kind⟩ listed rfl
    rw [(keyword_bytes _ listed).2.2, (Kind.ofWord_of_mem_keywords listed).1] at hk
    exact (Kind.ofWord_of_mem_keywords listed).2 hk
  · have covers := Covers.keyword (mem_keywords_of_ofWord hk)
    rwa [bytes_ofByteValues fun b hb => isAscii_of_isWordByte (inside b hb)] at covers

/-- The kind of a word follows from its bytes. -/
theorem Kind.ofWord_bytes {word : String} {kind : Kind} (listed : (word, kind) ∈ keywords) :
    Kind.ofWord (ofByteValues (bytes word)) = kind := by
  rw [(keyword_bytes _ listed).2.2, (Kind.ofWord_of_mem_keywords listed).1]

theorem Kind.ofWord_free {word : List UInt8} (inside : ∀ b ∈ word, isWordByte b = true)
    (free : ∀ entry ∈ keywords, word ≠ bytes entry.1) :
    Kind.ofWord (ofByteValues word) = .identifier := by
  refine Classical.byContradiction fun hk => free _ (mem_keywords_of_ofWord hk) ?_
  rw [bytes_ofByteValues fun b hb => isAscii_of_isWordByte (inside b hb)]

namespace Lexeme

/-! ## The lexeme behind a first byte -/

/-- There is only one lexeme in front of a source. -/
theorem Recognized.unique {source : List UInt8} {l l' : Lexeme} (h : Recognized source l)
    (h' : Recognized source l') : l' = l :=
  Option.some.inj ((recognize?_eq_some_iff.mpr h').symm.trans (recognize?_eq_some_iff.mpr h))

/-- With a byte of the class in front the longest run is not empty. -/
theorem exists_longestRun {isIn : UInt8 → Bool} {b : UInt8} (source : List UInt8)
    (hb : isIn b = true) : ∃ run rest, b :: source = run ++ rest ∧ run ≠ []
      ∧ LongestRun isIn run rest := by
  obtain ⟨rest, same, run⟩ := longestRun_takeWhile isIn (b :: source)
  refine ⟨_, rest, same, ?_, run⟩
  rw [List.takeWhile_cons_of_pos hb]
  exact List.cons_ne_nil _ _

/-- No other run is longer. -/
theorem LongestRun.length_le {isIn : UInt8 → Bool} {run rest other : List UInt8}
    (h : LongestRun isIn run rest) (inside : ∀ b ∈ other, isIn b = true)
    (isPrefix : other <+: run ++ rest) : other.length ≤ run.length := by
  obtain ⟨behind, same⟩ := isPrefix
  have taken := h.takeWhile
  rw [← same, List.takeWhile_append_of_pos inside] at taken
  rw [← taken, List.length_append]
  exact Nat.le_add_right _ _

variable {b : UInt8} {source : List UInt8} {l : Lexeme}

theorem Recognized.of_isWordByte (h : Recognized (b :: source) l) (hb : isWordByte b = true) :
    ∃ word rest, b :: source = word ++ rest ∧ LongestRun isWordByte word rest
      ∧ l = plain (Kind.ofWord (ofByteValues word)) word := by
  obtain ⟨word, rest, same, nonempty, run⟩ := exists_longestRun source hb
  rw [same] at h
  exact ⟨word, rest, same, run, (Recognized.word nonempty run).unique h⟩

theorem Recognized.of_isDigit (h : Recognized (b :: source) l) (hb : isDigit b = true) :
    ∃ digits rest, b :: source = digits ++ rest ∧ LongestRun isDigit digits rest
      ∧ (rest.head? ≠ some point ∧ l = plain .integer digits
        ∨ ∃ fraction behind, rest = point :: (fraction ++ behind)
          ∧ LongestRun isDigit fraction behind
          ∧ l = plain .float (digits ++ point :: fraction)) := by
  obtain ⟨digits, rest, same, nonempty, run⟩ := exists_longestRun source hb
  rw [same] at h
  refine ⟨digits, rest, same, run, ?_⟩
  by_cases hp : rest.head? = some point
  · obtain ⟨tail, rfl⟩ := List.head?_eq_some_iff.mp hp
    obtain ⟨behind, parts, fraction⟩ := longestRun_takeWhile isDigit tail
    refine .inr ⟨tail.takeWhile isDigit, behind, by rw [← parts], fraction, ?_⟩
    have float := Recognized.float nonempty run.inside fraction
    rw [List.append_assoc, List.cons_append, ← parts] at float
    exact float.unique h
  · exact .inl ⟨hp, (Recognized.integer nonempty run hp).unique h⟩

theorem Recognized.of_quote (h : Recognized (quoteMark :: source) l) :
    ∃ content, quoteMark ∉ content
      ∧ ((∃ rest, source = content ++ quoteMark :: rest
          ∧ l = ⟨.string, content.length + 2, content, false⟩)
        ∨ source = content ∧ l = ⟨.string, content.length + 1, content, true⟩) := by
  obtain ⟨rest, same, run⟩ := longestRun_takeWhile (· != quoteMark) source
  have inside : quoteMark ∉ source.takeWhile (· != quoteMark) :=
    fun hm => by simpa using run.inside _ hm
  refine ⟨_, inside, ?_⟩
  cases rest with
  | nil =>
    rw [List.append_nil] at same
    rw [← same] at inside ⊢
    exact .inr ⟨rfl, (Recognized.unclosed inside).unique h⟩
  | cons d rest =>
    obtain rfl : d = quoteMark := by simpa using run.outside d rfl
    refine .inl ⟨rest, same, ?_⟩
    rw [same] at h
    exact (Recognized.closed inside).unique h

/-- Both bytes of `==` and `!=` belong to the symbol. -/
theorem Recognized.of_pair {kind : Kind} (h : Recognized (bytes kind.symbol ++ source) l)
    (pair : kind = .eq ∨ kind = .neq) : l = plain kind (bytes kind.symbol) := by
  have listed : kind ∈ symbols := by rcases pair with rfl | rfl <;> decide
  refine (Recognized.symbol listed fun short => ?_).unique h
  rcases pair with rfl | rfl <;> rcases short with hk | hk <;> cases hk

/-! ## The longest of all -/

/-- A lexeme in front of any byte covers one at least. -/
theorem Recognized.length_pos (h : Recognized source l) (nonempty : source ≠ []) : 0 < l.length :=
  (length_pos_of_recognize? (recognize?_eq_some_iff.mpr h) fun atEnd =>
    nonempty (h.of_eof atEnd).1).1

theorem Recognized.word_length_le {run : List UInt8} (h : Recognized source l) (nonempty : run ≠ [])
    (inside : ∀ b ∈ run, isWordByte b = true) (isPrefix : run <+: source) :
    run.length ≤ l.length := by
  obtain ⟨b, run, rfl⟩ := List.exists_cons_of_ne_nil nonempty
  obtain ⟨behind, rfl⟩ := isPrefix
  obtain ⟨word, rest, same, longest, rfl⟩ :=
    h.of_isWordByte (b := b) (inside b List.mem_cons_self)
  exact longest.length_le inside ⟨behind, same⟩

theorem Recognized.digits_length_le {run : List UInt8} (h : Recognized source l)
    (nonempty : run ≠ []) (inside : ∀ b ∈ run, isDigit b = true) (isPrefix : run <+: source) :
    run.length ≤ l.length := by
  obtain ⟨b, run, rfl⟩ := List.exists_cons_of_ne_nil nonempty
  obtain ⟨behind, rfl⟩ := isPrefix
  obtain ⟨digits, rest, same, longest, sort⟩ := h.of_isDigit (b := b) (inside b List.mem_cons_self)
  have le := longest.length_le inside ⟨behind, same⟩
  rcases sort with ⟨-, rfl⟩ | ⟨fraction, behind, -, -, rfl⟩
  · exact le
  · rw [plain, List.length_append]
    exact Nat.le_add_right_of_le le

theorem Recognized.float_length_le {digits fraction : List UInt8} (h : Recognized source l)
    (nonempty : digits ≠ []) (whole : ∀ b ∈ digits, isDigit b = true)
    (decimals : ∀ b ∈ fraction, isDigit b = true)
    (isPrefix : digits ++ point :: fraction <+: source) :
    (digits ++ point :: fraction).length ≤ l.length := by
  obtain ⟨b, digits, rfl⟩ := List.exists_cons_of_ne_nil nonempty
  obtain ⟨behind, rfl⟩ := isPrefix
  obtain ⟨digits', rest, same, longest, sort⟩ := h.of_isDigit (b := b) (whole b List.mem_cons_self)
  -- the point ends the digits in front of it
  have ends : LongestRun isDigit (b :: digits) (point :: (fraction ++ behind)) :=
    ⟨whole, by rintro _ ⟨⟩; rfl⟩
  have cut : b :: digits ++ point :: (fraction ++ behind) = digits' ++ rest := by
    rw [← same]
    simp
  have taken := longest.takeWhile
  rw [← cut, ends.takeWhile] at taken
  subst taken
  have tail := List.append_cancel_left cut
  rcases sort with ⟨noPoint, -⟩ | ⟨fraction', behind', rfl, longest', rfl⟩
  · exact absurd (by rw [← tail]; rfl) noPoint
  · have le := longest'.length_le decimals ⟨behind, (List.cons.inj tail).2⟩
    simp only [plain, List.length_append, List.length_cons]
    omega

/-- A string goes as far as there is no quote, and one byte further if there is one. -/
theorem Recognized.string_length_le {content : List UInt8} (h : Recognized source l)
    (inside : quoteMark ∉ content) (isPrefix : quoteMark :: content <+: source) :
    (quoteMark :: content).length ≤ l.length
      ∧ (quoteMark :: (content ++ [quoteMark]) <+: source →
        (quoteMark :: (content ++ [quoteMark])).length ≤ l.length) := by
  obtain ⟨behind, rfl⟩ := isPrefix
  obtain ⟨content', inside', ⟨rest, same, rfl⟩ | ⟨same, rfl⟩⟩ := h.of_quote
  · have longest : LongestRun (· != quoteMark) content' (quoteMark :: rest) :=
      ⟨fun b hb => bne_iff_ne.mpr fun other => inside' (other ▸ hb), by rintro _ ⟨⟩; rfl⟩
    have le := longest.length_le (fun b hb => bne_iff_ne.mpr fun other => inside (other ▸ hb))
      ⟨behind, same⟩
    simp only [List.length_append, List.length_cons, List.length_nil]
    omega
  · have same : content ++ behind = content' := same
    rw [← same]
    refine ⟨by simp, fun isPrefix => ?_⟩
    have le := isPrefix.length_le
    simp only [List.cons_append, List.length_append, List.length_cons, List.length_nil] at le ⊢
    omega

/-- Of two symbols that fit, the lexeme is the longer one. -/
theorem Recognized.symbol_length_le {kind : Kind} (h : Recognized source l)
    (listed : kind ∈ symbols) (isPrefix : bytes kind.symbol <+: source) :
    (bytes kind.symbol).length ≤ l.length := by
  have short : ∀ k ∈ symbols, (k = .eq ∨ k = .neq) ∨ (bytes k.symbol).length = 1 := by
    decide +kernel
  obtain ⟨behind, rfl⟩ := isPrefix
  rcases short kind listed with pair | one
  · rw [h.of_pair pair]
    exact Nat.le_refl _
  · rw [one]
    exact h.length_pos (List.append_ne_nil_of_left_ne_nil (bytes_symbol_ne_nil listed) _)

/-- **No token of any kind covers more bytes in front of a source than its lexeme does.** -/
theorem Recognized.longest {run : List UInt8} {kind : Kind} (h : Recognized source l)
    (covers : kind.Covers run) (isPrefix : run <+: source) : run.length ≤ l.length := by
  cases covers with
  | keyword listed =>
    obtain ⟨nonempty, inside, -⟩ := keyword_bytes _ listed
    exact h.word_length_le nonempty inside isPrefix
  | identifier nonempty inside => exact h.word_length_le nonempty inside isPrefix
  | integer nonempty inside => exact h.digits_length_le nonempty inside isPrefix
  | float nonempty whole decimals => exact h.float_length_le nonempty whole decimals isPrefix
  | @closed content inside =>
    have front : quoteMark :: content <+: source :=
      (List.prefix_append (quoteMark :: content) [quoteMark]).trans isPrefix
    exact (h.string_length_le inside front).2 isPrefix
  | unclosed inside => exact (h.string_length_le inside isPrefix).1
  | symbol listed => exact h.symbol_length_le listed isPrefix
  | illegal b =>
    refine h.length_pos ?_
    rintro rfl
    exact absurd isPrefix.length_le (by simp)

end Lexeme

end Scriptlet
