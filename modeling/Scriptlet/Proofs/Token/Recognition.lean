import Scriptlet.Proofs.Text.Ascii
import Scriptlet.Token.Lexeme

/-!
# What is recognized

`Recognized source l` says, without reference to the order of the recognizers, which lexeme a source
shows at its front: a word and a number as long as possible, a string up to the next quote, of two
symbols the longer one, and an illegal byte only where nothing else fits. `recognized` is the
statement that the recognizers keep to it.

What a lexeme has as its text follows case by case: all bytes it covers are ASCII, except in a
string and in an illegal byte.
-/

namespace Scriptlet

open Text

namespace Lexeme

/-! ## Runs of bytes -/

/-- `run` holds bytes of a class, and the byte behind it is of another one. -/
structure LongestRun (isIn : UInt8 → Bool) (run rest : List UInt8) : Prop where
  inside : ∀ b ∈ run, isIn b = true
  outside : ∀ b ∈ rest.head?, isIn b = false

/-- The longest run is what `takeWhile` takes. -/
theorem LongestRun.takeWhile {isIn : UInt8 → Bool} {run rest : List UInt8}
    (h : LongestRun isIn run rest) : (run ++ rest).takeWhile isIn = run := by
  rw [List.takeWhile_append_of_pos h.inside]
  cases rest with
  | nil => simp
  | cons b rest => simp [h.outside b rfl]

theorem longestRun_takeWhile (isIn : UInt8 → Bool) : ∀ source : List UInt8,
    ∃ rest, source = source.takeWhile isIn ++ rest ∧ LongestRun isIn (source.takeWhile isIn) rest
  | [] => ⟨[], rfl, by simp, by simp⟩
  | b :: source => by
    obtain ⟨rest, same, run⟩ := longestRun_takeWhile isIn source
    rw [List.takeWhile_cons]
    split
    · next hb =>
      refine ⟨rest, by rw [List.cons_append, ← same], ?_, run.outside⟩
      intro x hx
      rcases List.mem_cons.mp hx with rfl | hx
      · exact hb
      · exact run.inside x hx
    · next hb => exact ⟨b :: source, rfl, by simp, by simpa using hb⟩

/-- Behind the longest run stands what is left without so many bytes. -/
theorem longestRun_drop (isIn : UInt8 → Bool) (source : List UInt8) :
    source = source.takeWhile isIn ++ source.drop (source.takeWhile isIn).length
      ∧ LongestRun isIn (source.takeWhile isIn) (source.drop (source.takeWhile isIn).length) := by
  obtain ⟨rest, same, run⟩ := longestRun_takeWhile isIn source
  have behind : source.drop (source.takeWhile isIn).length = rest := by
    rw [congrArg (List.drop _) same, List.drop_left]
  rw [behind]
  exact ⟨same, run⟩

/-- Without a run the first byte is of another class. -/
theorem head_of_takeWhile_nil {isIn : UInt8 → Bool} {b : UInt8} {rest : List UInt8}
    (h : (b :: rest).takeWhile isIn = []) : isIn b = false := by
  rw [List.takeWhile_cons] at h
  split at h
  · cases h
  · simpa using ‹¬ isIn b = true›

/-! ## The lexeme in front of a source -/

/-- The byte of `=`. -/
def equalsSign : UInt8 := 61

/-- The lexeme that a source shows at its front. -/
inductive Recognized : List UInt8 → Lexeme → Prop where
  | eof : Recognized [] (plain .eof [])
  | word {word rest : List UInt8} (nonempty : word ≠ []) (run : LongestRun isWordByte word rest) :
      Recognized (word ++ rest) (plain (Kind.ofWord (ofByteValues word)) word)
  | integer {digits rest : List UInt8} (nonempty : digits ≠ [])
      (run : LongestRun isDigit digits rest) (noPoint : rest.head? ≠ some point) :
      Recognized (digits ++ rest) (plain .integer digits)
  | float {digits fraction rest : List UInt8} (nonempty : digits ≠ [])
      (whole : ∀ b ∈ digits, isDigit b = true) (run : LongestRun isDigit fraction rest) :
      Recognized (digits ++ point :: fraction ++ rest) (plain .float (digits ++ point :: fraction))
  | closed {content rest : List UInt8} (inside : quoteMark ∉ content) :
      Recognized (quoteMark :: (content ++ quoteMark :: rest))
        ⟨.string, content.length + 2, content, false⟩
  | unclosed {content : List UInt8} (inside : quoteMark ∉ content) :
      Recognized (quoteMark :: content) ⟨.string, content.length + 1, content, true⟩
  | symbol {kind : Kind} {rest : List UInt8} (listed : kind ∈ symbols)
      (longest : kind = .assign ∨ kind = .bang → rest.head? ≠ some equalsSign) :
      Recognized (bytes kind.symbol ++ rest) (plain kind (bytes kind.symbol))
  | illegal {b : UInt8} {rest : List UInt8} (noWord : isWordByte b = false)
      (noDigit : isDigit b = false) (noQuote : b ≠ quoteMark)
      (noSymbol : ∀ kind ∈ symbols, (bytes kind.symbol).head? ≠ some b) :
      Recognized (b :: rest) (plain .illegal [b])

/-! ## One recognizer at a time -/

theorem recognized_word {source : List UInt8} {l : Lexeme} (h : word? source = some l) :
    Recognized source l := by
  obtain ⟨rest, same, run⟩ := longestRun_takeWhile isWordByte source
  unfold word? at h
  generalize source.takeWhile isWordByte = word at same run h
  subst same
  split at h
  · cases h
  · next hne =>
    cases h
    exact .word hne run

theorem word?_none {b : UInt8} {rest : List UInt8} (h : word? (b :: rest) = none) :
    isWordByte b = false := by
  unfold word? at h
  split at h
  · next hnil => exact head_of_takeWhile_nil hnil
  · cases h

theorem recognized_number {source : List UInt8} {l : Lexeme} (h : number? source = some l) :
    Recognized source l := by
  obtain ⟨rest, same, run⟩ := longestRun_takeWhile isDigit source
  unfold number? at h
  generalize source.takeWhile isDigit = digits at same run h
  subst same
  split at h
  · cases h
  · next _ hne =>
    rw [List.drop_left] at h
    cases rest with
    | nil =>
      cases h
      exact .integer hne run (by simp)
    | cons b rest =>
      simp only at h
      split at h
      · next hb =>
        cases h
        subst hb
        obtain ⟨behind, same, fraction⟩ := longestRun_takeWhile isDigit rest
        have parts : digits ++ point :: rest
            = digits ++ point :: rest.takeWhile isDigit ++ behind := by
          rw [List.append_assoc, List.cons_append, ← same]
        rw [parts]
        exact .float hne run.inside fraction
      · next hb =>
        cases h
        exact .integer hne run (by simpa using hb)

theorem number?_none {b : UInt8} {rest : List UInt8} (h : number? (b :: rest) = none) :
    isDigit b = false := by
  unfold number? at h
  split at h
  · next hnil => exact head_of_takeWhile_nil hnil
  · repeat' split at h
    all_goals cases h

theorem recognized_string {source : List UInt8} {l : Lexeme} (h : string? source = some l) :
    Recognized source l := by
  cases source with
  | nil => cases h
  | cons b source =>
    rw [string?] at h
    split at h
    · next hb =>
      subst hb
      obtain ⟨rest, same, run⟩ := longestRun_takeWhile (· != quoteMark) source
      dsimp only at h
      generalize source.takeWhile (· != quoteMark) = content at same run h
      subst same
      have inside : quoteMark ∉ content := fun hm => by simpa using run.inside _ hm
      cases rest with
      | nil =>
        rw [List.append_nil] at h ⊢
        simp only [beq_self_eq_true, if_true, Option.some.injEq] at h
        subst h
        exact .unclosed inside
      | cons d rest =>
        have hd : d = quoteMark := by simpa using run.outside d rfl
        have longer : (content.length == (content ++ d :: rest).length) = false := by simp
        simp only [longer, Bool.false_eq_true, if_false, Option.some.injEq] at h
        subst h hd
        exact .closed inside
    · cases h

theorem string?_none {b : UInt8} {rest : List UInt8} (h : string? (b :: rest) = none) :
    b ≠ quoteMark := by
  rw [string?] at h
  split at h
  · cases h
  · assumption

/-- The first listed symbol that a source begins with. -/
def firstSymbol (source : List UInt8) : Option Kind :=
  symbols.find? fun kind => (bytes kind.symbol).isPrefixOf source

theorem firstSymbol_equals (rest : List UInt8) :
    firstSymbol (bytes Kind.assign.symbol ++ equalsSign :: rest) = some .eq := rfl

theorem firstSymbol_bang (rest : List UInt8) :
    firstSymbol (bytes Kind.bang.symbol ++ equalsSign :: rest) = some .neq := rfl

theorem recognized_symbol {source : List UInt8} {l : Lexeme} (h : symbol? source = some l) :
    Recognized source l := by
  obtain ⟨kind, found, rfl⟩ := Option.map_eq_some_iff.1 h
  have isPrefix := List.find?_some found
  obtain ⟨rest, rfl⟩ := List.isPrefixOf_iff_prefix.mp isPrefix
  refine .symbol (List.mem_of_find?_eq_some found) ?_
  -- in front of a second `=` the two-byte symbol would have been found
  rintro (rfl | rfl) hhead
  · obtain ⟨tail, rfl⟩ := List.head?_eq_some_iff.mp hhead
    have other : firstSymbol _ = some Kind.assign := found
    rw [firstSymbol_equals] at other
    cases other
  · obtain ⟨tail, rfl⟩ := List.head?_eq_some_iff.mp hhead
    have other : firstSymbol _ = some Kind.bang := found
    rw [firstSymbol_bang] at other
    cases other

theorem symbol?_none {b : UInt8} {source : List UInt8} (h : symbol? (b :: source) = none) :
    ∀ kind ∈ symbols, (bytes kind.symbol).head? ≠ some b := by
  have single : ∀ kind ∈ symbols, ∃ short ∈ symbols,
      (bytes kind.symbol).head?.toList = bytes short.symbol := by decide
  intro kind listed hb
  obtain ⟨short, hshort, same⟩ := single kind listed
  rw [hb, Option.toList_some] at same
  have refused := List.find?_eq_none.mp (Option.map_eq_none_iff.mp h) short hshort
  exact refused (by rw [← same]; simp)

/-! ## The first recognizer that accepts -/

theorem recognize?_cons (b : UInt8) (rest : List UInt8) : recognize? (b :: rest) =
    ((word? (b :: rest)).or ((number? (b :: rest)).or ((string? (b :: rest)).or
      ((symbol? (b :: rest)).or (illegal? (b :: rest)))))) := by
  simp only [recognize?, recognizers, List.findSome?, eof?]
  cases word? (b :: rest) <;> cases number? (b :: rest) <;> cases string? (b :: rest) <;>
    cases symbol? (b :: rest) <;> rfl

/-- What the recognizers find is the lexeme in front of the source. -/
theorem recognized {source : List UInt8} {l : Lexeme} (h : recognize? source = some l) :
    Recognized source l := by
  cases source with
  | nil =>
    cases h
    exact .eof
  | cons b rest =>
    rw [recognize?_cons] at h
    rcases Option.or_eq_some_iff.mp h with h | ⟨noWord, h⟩
    · exact recognized_word h
    rcases Option.or_eq_some_iff.mp h with h | ⟨noNumber, h⟩
    · exact recognized_number h
    rcases Option.or_eq_some_iff.mp h with h | ⟨noString, h⟩
    · exact recognized_string h
    rcases Option.or_eq_some_iff.mp h with h | ⟨noSymbol, h⟩
    · exact recognized_symbol h
    cases h
    exact .illegal (word?_none noWord) (number?_none noNumber) (string?_none noString)
      (symbol?_none noSymbol)

/-- A lexeme stands in front of every source. -/
theorem exists_recognized (source : List UInt8) :
    ∃ l, recognize? source = some l ∧ Recognized source l := by
  obtain ⟨l, found⟩ := Option.isSome_iff_exists.mp (recognize?_isSome source)
  exact ⟨l, found, recognized found⟩

/-! ## What a lexeme covers -/

/-- The bytes that a lexeme covers stand at the front of the source. -/
theorem Recognized.exists_covered {source : List UInt8} {l : Lexeme} (h : Recognized source l) :
    ∃ covered rest, source = covered ++ rest ∧ l.length = covered.length := by
  cases h with
  | eof => exact ⟨[], [], rfl, rfl⟩
  | word | integer | float | symbol => exact ⟨_, _, rfl, rfl⟩
  | @closed content rest =>
    exact ⟨quoteMark :: (content ++ [quoteMark]), rest, by simp, by simp⟩
  | unclosed => exact ⟨_, [], (List.append_nil _).symm, rfl⟩
  | @illegal b rest => exact ⟨[b], rest, rfl, rfl⟩

theorem isAscii_of_isWordByte {b : UInt8} (h : isWordByte b = true) : IsAscii b := by
  simp only [isWordByte, Bool.or_eq_true, Bool.and_eq_true, decide_eq_true_eq, beq_iff_eq,
    UInt8.le_iff_toNat_le] at h
  rcases h with (h | h) | rfl
  · exact Nat.lt_of_le_of_lt h.2 (by decide)
  · exact Nat.lt_of_le_of_lt h.2 (by decide)
  · decide

theorem isAscii_of_isDigit {b : UInt8} (h : isDigit b = true) : IsAscii b := by
  simp only [isDigit, Bool.and_eq_true, decide_eq_true_eq, UInt8.le_iff_toNat_le] at h
  exact Nat.lt_of_le_of_lt h.2 (by decide)

/-- A digit as a byte is one as a character. -/
theorem isDigit_ofNat {b : UInt8} (h : isDigit b = true) : (Char.ofNat b.toNat).isDigit = true := by
  have all : ∀ n < 58, 48 ≤ n → (Char.ofNat n).isDigit = true := by decide
  simp only [isDigit, Bool.and_eq_true, decide_eq_true_eq, UInt8.le_iff_toNat_le] at h
  exact all b.toNat (Nat.lt_succ_of_le h.2) h.1

theorem isAscii_of_mem_symbol {kind : Kind} (h : kind ∈ symbols) :
    ∀ b ∈ bytes kind.symbol, IsAscii b := by
  have all : ∀ k ∈ symbols, ∀ b ∈ bytes k.symbol, b.toNat < 0x80 := by decide +kernel
  exact all kind h

theorem bytes_symbol_ne_nil {kind : Kind} (h : kind ∈ symbols) : bytes kind.symbol ≠ [] := by
  have all : ∀ k ∈ symbols, bytes k.symbol ≠ [] := by decide
  exact all kind h

/-! ## Kinds -/

/-- The kinds that a word may have. -/
def wordKinds : List Kind := .identifier :: Kind.keywords.map Prod.snd

/-- A word that is no identifier is a reserved one. -/
theorem mem_keywords_of_ofWord {word : String} (h : Kind.ofWord word ≠ .identifier) :
    (word, Kind.ofWord word) ∈ Kind.keywords := by
  unfold Kind.ofWord at h ⊢
  cases found : Kind.keywords.lookup word with
  | none => rw [found] at h; exact absurd rfl h
  | some kind =>
    obtain ⟨front, behind, same, -⟩ := List.lookup_eq_some_iff.mp found
    rw [same]
    simp

theorem ofWord_mem_wordKinds (word : String) : Kind.ofWord word ∈ wordKinds := by
  by_cases h : Kind.ofWord word = .identifier
  · rw [h]
    exact List.mem_cons_self
  · exact List.mem_cons_of_mem _ (List.mem_map_of_mem (mem_keywords_of_ofWord h))

theorem ofWord_ne {kind : Kind} (h : kind ∉ wordKinds) (word : String) : Kind.ofWord word ≠ kind :=
  fun same => h (same ▸ ofWord_mem_wordKinds word)

theorem ne_of_mem_symbols {kind other : Kind} (h : kind ∈ symbols) (h' : other ∉ symbols) :
    kind ≠ other :=
  fun same => h' (same ▸ h)

/-- Only behind the last byte the end is recognized. -/
theorem Recognized.of_eof {source : List UInt8} {l : Lexeme} (h : Recognized source l)
    (atEnd : l.kind = .eof) : source = [] ∧ l = plain .eof [] := by
  cases h with
  | eof => exact ⟨rfl, rfl⟩
  | word => exact absurd atEnd (ofWord_ne (by decide) _)
  | symbol listed => exact absurd atEnd (ne_of_mem_symbols listed (by decide))
  | integer | float | closed | unclosed | illegal => cases atEnd

/-! ## Texts of lexemes -/

theorem literal_of_ne_illegal {l : Lexeme} (h : l.kind ≠ .illegal) :
    l.literal = decodeLossy l.content :=
  if_neg h

/-- The text of ASCII bytes is the one with their values. -/
theorem literal_plain {kind : Kind} {content : List UInt8} (hk : kind ≠ .illegal)
    (ascii : ∀ b ∈ content, IsAscii b) : (plain kind content).literal = ofByteValues content :=
  (literal_of_ne_illegal hk).trans (decodeLossy_ascii ascii)

/-- The end has no text. -/
theorem literal_eof : (plain .eof []).literal = "" := decodeLossy_bytes ""

/-- The text of a word is the word. -/
theorem literal_word {word rest : List UInt8} (run : LongestRun isWordByte word rest) :
    (plain (Kind.ofWord (ofByteValues word)) word).literal = ofByteValues word :=
  literal_plain (ofWord_ne (by decide) _) fun b hb => isAscii_of_isWordByte (run.inside b hb)

/-- An identifier is a word that is not reserved. -/
theorem Recognized.of_identifier {source : List UInt8} {l : Lexeme} (h : Recognized source l)
    (hk : l.kind = .identifier) : ∃ word, word ≠ [] ∧ (∀ b ∈ word, isWordByte b = true)
      ∧ l.literal = ofByteValues word ∧ Kind.ofWord l.literal = .identifier := by
  cases h with
  | word nonempty run =>
    exact ⟨_, nonempty, run.inside, literal_word run, by rw [literal_word run]; exact hk⟩
  | symbol listed => exact absurd hk (ne_of_mem_symbols listed (by decide))
  | eof | integer | float | closed | unclosed | illegal => cases hk

/-- An integer is a run of digits. -/
theorem Recognized.of_integer {source : List UInt8} {l : Lexeme} (h : Recognized source l)
    (hk : l.kind = .integer) : ∃ digits, digits ≠ [] ∧ (∀ b ∈ digits, isDigit b = true)
      ∧ l.literal = ofByteValues digits := by
  cases h with
  | integer nonempty run =>
    exact ⟨_, nonempty, run.inside,
      literal_plain (by decide) fun b hb => isAscii_of_isDigit (run.inside b hb)⟩
  | word => exact absurd hk (ofWord_ne (by decide) _)
  | symbol listed => exact absurd hk (ne_of_mem_symbols listed (by decide))
  | eof | float | closed | unclosed | illegal => cases hk

/-- The kinds whose tokens have different texts. -/
def variableKinds : List Kind := [.integer, .float, .string, .identifier, .eof, .illegal]

/-- Every other token is its symbol. -/
theorem Recognized.literal_eq_symbol {source : List UInt8} {l : Lexeme} (h : Recognized source l)
    (hk : l.kind ∉ variableKinds) : l.literal = l.kind.symbol := by
  cases h with
  | @word word _ _ run =>
    have reserved : Kind.ofWord (ofByteValues word) ≠ .identifier := by
      intro same
      exact hk (show Kind.ofWord _ ∈ _ by rw [same]; decide)
    rw [literal_word run]
    exact (Kind.symbol_of_mem_keywords (mem_keywords_of_ofWord reserved)).symm
  | symbol listed =>
    rw [literal_of_ne_illegal (ne_of_mem_symbols listed (by decide))]
    exact decodeLossy_bytes _
  | eof | integer | float | closed | unclosed | illegal =>
    exact absurd (by simp [plain, variableKinds]) hk

end Lexeme

end Scriptlet
