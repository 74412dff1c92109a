import Scriptlet.Proofs.Token.Recognition
import Scriptlet.Token.Gap

/-!
# Every lexeme is recognized

`recognized` says that the recognizers find the lexeme in front of a source, and here is the other
direction: the lexeme that `Recognized` describes is the one they find (`recognize?_eq_some_iff`),
so there is only one.

The first byte decides which recognizer accepts. What follows the lexeme matters by its first byte
only, so the lexeme stays where the bytes behind it are replaced by others that begin alike or with
a blank (`Recognized.exists_stable`).
-/

namespace Scriptlet.Lexeme

open Text

/-! ## Classes of bytes -/

/-- A statement about all bytes can be looked up. -/
theorem forall_byte {P : UInt8 → Prop} (all : ∀ n < 256, P (UInt8.ofNat n)) (b : UInt8) : P b := by
  have this := all b.toNat b.toNat_lt
  rwa [UInt8.ofNat_toNat] at this

theorem noGap_of_isWordByte : ∀ b, isWordByte b = true → Gap.isBlank b = false ∧ b ≠ Gap.slash :=
  forall_byte (by decide +kernel)

theorem noGap_of_isDigit : ∀ b, isDigit b = true → Gap.isBlank b = false ∧ b ≠ Gap.slash :=
  forall_byte (by decide +kernel)

theorem isWordByte_of_isDigit : ∀ b, isDigit b = true → isWordByte b = false :=
  forall_byte (by decide +kernel)

theorem isDigit_of_isWordByte : ∀ b, isWordByte b = true → isDigit b = false ∧ b ≠ point :=
  forall_byte (by decide +kernel)

theorem isWordByte_of_isBlank : ∀ b, Gap.isBlank b = true → isWordByte b = false :=
  forall_byte (by decide +kernel)

theorem isDigit_of_isBlank : ∀ b, Gap.isBlank b = true → isDigit b = false :=
  forall_byte (by decide +kernel)

/-! ## Recognizers that refuse -/

theorem word?_eq_none {b : UInt8} (h : isWordByte b = false) (rest : List UInt8) :
    word? (b :: rest) = none := by
  rw [word?, List.takeWhile_cons_of_neg (by rw [h]; exact Bool.false_ne_true)]

theorem number?_eq_none {b : UInt8} (h : isDigit b = false) (rest : List UInt8) :
    number? (b :: rest) = none := by
  rw [number?, List.takeWhile_cons_of_neg (by rw [h]; exact Bool.false_ne_true)]

theorem string?_eq_none {b : UInt8} (h : b ≠ quoteMark) (rest : List UInt8) :
    string? (b :: rest) = none :=
  if_neg h

theorem symbol?_eq_none {b : UInt8}
    (h : ∀ kind ∈ symbols, (bytes kind.symbol).head? ≠ some b) (rest : List UInt8) :
    symbol? (b :: rest) = none := by
  refine Option.map_eq_none_iff.mpr (List.find?_eq_none.mpr fun kind listed found => ?_)
  have differs := h kind listed
  have nonempty := bytes_symbol_ne_nil listed
  cases hb : bytes kind.symbol with
  | nil => exact nonempty hb
  | cons d tail =>
    rw [hb] at found differs
    simp only [List.isPrefixOf, Bool.and_eq_true, beq_iff_eq] at found
    exact differs (congrArg some found.1)

/-! ## One class at a time -/

/-- A word is recognized as far as it goes. -/
theorem recognize?_word {word rest : List UInt8} (nonempty : word ≠ [])
    (run : LongestRun isWordByte word rest) :
    recognize? (word ++ rest) = some (plain (Kind.ofWord (ofByteValues word)) word) := by
  have found : word? (word ++ rest) = some (plain (Kind.ofWord (ofByteValues word)) word) := by
    unfold word?
    rw [run.takeWhile]
    split
    · exact absurd rfl nonempty
    · rfl
  cases word with
  | nil => exact absurd rfl nonempty
  | cons b word => rw [List.cons_append, recognize?_cons, ← List.cons_append, found, Option.some_or]

/-- A run of digits is recognized as far as it goes, if no point follows it. -/
theorem recognize?_integer {digits rest : List UInt8} (nonempty : digits ≠ [])
    (run : LongestRun isDigit digits rest) (noPoint : rest.head? ≠ some point) :
    recognize? (digits ++ rest) = some (plain .integer digits) := by
  have found : number? (digits ++ rest) = some (plain .integer digits) := by
    unfold number?
    rw [run.takeWhile]
    split
    · exact absurd rfl nonempty
    · rw [List.drop_left]
      split
      · rfl
      · next b rest => exact if_neg fun hb => noPoint (by rw [hb]; rfl)
  cases digits with
  | nil => exact absurd rfl nonempty
  | cons b digits =>
    have noWord := isWordByte_of_isDigit b (run.inside b List.mem_cons_self)
    rw [List.cons_append, recognize?_cons, word?_eq_none noWord, Option.none_or,
      ← List.cons_append, found, Option.some_or]

theorem recognize?_float {digits fraction rest : List UInt8} (nonempty : digits ≠ [])
    (whole : ∀ b ∈ digits, isDigit b = true) (run : LongestRun isDigit fraction rest) :
    recognize? (digits ++ point :: fraction ++ rest)
      = some (plain .float (digits ++ point :: fraction)) := by
  have ends : LongestRun isDigit digits (point :: (fraction ++ rest)) :=
    ⟨whole, by rintro _ ⟨⟩; rfl⟩
  have found : number? (digits ++ point :: (fraction ++ rest))
      = some (plain .float (digits ++ point :: fraction)) := by
    unfold number?
    rw [ends.takeWhile]
    split
    · exact absurd rfl nonempty
    · rw [List.drop_left]
      simp only [if_true, run.takeWhile]
  rw [List.append_assoc, List.cons_append]
  cases digits with
  | nil => exact absurd rfl nonempty
  | cons b digits =>
    have noWord := isWordByte_of_isDigit b (whole b List.mem_cons_self)
    rw [List.cons_append, recognize?_cons, word?_eq_none noWord, Option.none_or,
      ← List.cons_append, found, Option.some_or]

/-- A quote begins neither a word nor a number. -/
theorem recognize?_quote (rest : List UInt8) {l : Lexeme}
    (found : string? (quoteMark :: rest) = some l) :
    recognize? (quoteMark :: rest) = some l := by
  rw [recognize?_cons, word?_eq_none rfl, number?_eq_none rfl, found]
  rfl

theorem takeWhile_content {content : List UInt8} (inside : quoteMark ∉ content)
    (rest : List UInt8) : (content ++ rest).takeWhile (· != quoteMark)
      = content ++ rest.takeWhile (· != quoteMark) := by
  refine List.takeWhile_append_of_pos fun b hb => ?_
  exact bne_iff_ne.mpr fun same => inside (same ▸ hb)

theorem recognize?_closed {content rest : List UInt8} (inside : quoteMark ∉ content) :
    recognize? (quoteMark :: (content ++ quoteMark :: rest))
      = some ⟨.string, content.length + 2, content, false⟩ := by
  refine recognize?_quote _ ?_
  have cut : (content ++ quoteMark :: rest).takeWhile (· != quoteMark) = content := by
    rw [takeWhile_content inside, List.takeWhile_cons_of_neg (by simp), List.append_nil]
  have longer : (content.length == (content ++ quoteMark :: rest).length) = false := by simp
  simp only [string?, if_true, cut, longer, Bool.false_eq_true, if_false]

theorem recognize?_unclosed {content : List UInt8} (inside : quoteMark ∉ content) :
    recognize? (quoteMark :: content) = some ⟨.string, content.length + 1, content, true⟩ := by
  refine recognize?_quote _ ?_
  have cut : content.takeWhile (· != quoteMark) = content := by
    simpa using takeWhile_content inside []
  simp only [string?, if_true, cut, beq_self_eq_true]

theorem isPrefixOf_pair_eq_false {a b : UInt8} (hb : b ≠ equalsSign) (rest : List UInt8) :
    [a, equalsSign].isPrefixOf (a :: b :: rest) = false := by
  simp [List.isPrefixOf, Ne.symm hb]

/-- Of two symbols that fit, the longer one is found. -/
theorem firstSymbol_eq {kind : Kind} {rest : List UInt8} (listed : kind ∈ symbols)
    (longest : kind = .assign ∨ kind = .bang → rest.head? ≠ some equalsSign) :
    firstSymbol (bytes kind.symbol ++ rest) = some kind := by
  cases kind with
  | assign =>
    cases rest with
    | nil => rfl
    | cons b rest =>
      -- the symbol in question is `==`
      have other := isPrefixOf_pair_eq_false (a := equalsSign)
        (fun same => longest (.inl rfl) (congrArg some same)) rest
      exact (List.find?_cons_of_neg (by rw [Bool.not_eq_true]; exact other)).trans rfl
  | bang =>
    cases rest with
    | nil => rfl
    | cons b rest =>
      have other := isPrefixOf_pair_eq_false (a := 33)
        (fun same => longest (.inr rfl) (congrArg some same)) rest
      have first : (bytes Kind.eq.symbol).isPrefixOf (bytes Kind.bang.symbol ++ b :: rest) = false :=
        rfl
      exact (List.find?_cons_of_neg (by rw [Bool.not_eq_true]; exact first)).trans
        ((List.find?_cons_of_neg (by rw [Bool.not_eq_true]; exact other)).trans rfl)
  | eq | neq | plus | minus | star | slash | lt | gt | comma | semicolon | colon | leftParen
  | rightParen | leftCurly | rightCurly | leftBracket | rightBracket => rfl
  | integer | float | string | identifier | eof | illegal | letWord | fnWord | returnWord | ifWord
  | elseWord | trueWord | falseWord => exact absurd listed (by decide)

theorem recognize?_symbol {kind : Kind} {rest : List UInt8} (listed : kind ∈ symbols)
    (longest : kind = .assign ∨ kind = .bang → rest.head? ≠ some equalsSign) :
    recognize? (bytes kind.symbol ++ rest) = some (plain kind (bytes kind.symbol)) := by
  have first : ∀ k ∈ symbols, ∀ b ∈ (bytes k.symbol).head?,
      isWordByte b = false ∧ isDigit b = false ∧ b ≠ quoteMark := by decide +kernel
  have found : symbol? (bytes kind.symbol ++ rest) = some (plain kind (bytes kind.symbol)) := by
    have this := firstSymbol_eq listed longest
    rw [firstSymbol] at this
    rw [symbol?, this]
    rfl
  cases hb : bytes kind.symbol with
  | nil => exact absurd hb (bytes_symbol_ne_nil listed)
  | cons b tail =>
    obtain ⟨noWord, noDigit, noQuote⟩ := first kind listed b (by rw [hb]; rfl)
    rw [hb] at found
    rw [List.cons_append, recognize?_cons, word?_eq_none noWord, number?_eq_none noDigit,
      string?_eq_none noQuote, ← List.cons_append, found]
    rfl

/-- **The recognizers find the lexeme in front of a source**, and there is no other. -/
theorem recognize?_eq_some_iff {source : List UInt8} {l : Lexeme} :
    recognize? source = some l ↔ Recognized source l := by
  refine ⟨recognized, fun h => ?_⟩
  cases h with
  | eof => rfl
  | word nonempty run => exact recognize?_word nonempty run
  | integer nonempty run noPoint => exact recognize?_integer nonempty run noPoint
  | float nonempty whole run => exact recognize?_float nonempty whole run
  | closed inside => exact recognize?_closed inside
  | unclosed inside => exact recognize?_unclosed inside
  | symbol listed longest => exact recognize?_symbol listed longest
  | illegal noWord noDigit noQuote noSymbol =>
    rw [recognize?_cons, word?_eq_none noWord, number?_eq_none noDigit, string?_eq_none noQuote,
      symbol?_eq_none noSymbol]
    rfl

/-! ## What follows a lexeme -/

/-- Of what follows a lexeme only the first byte matters, and that only if it is no blank. -/
def FollowsLike (rest rest' : List UInt8) : Prop :=
  rest'.head? = rest.head? ∨ ∃ b ∈ rest'.head?, Gap.isBlank b = true

theorem FollowsLike.forall_head {P : UInt8 → Prop} (blank : ∀ b, Gap.isBlank b = true → P b)
    {rest rest' : List UInt8} (like : FollowsLike rest rest') (h : ∀ b ∈ rest.head?, P b) :
    ∀ b ∈ rest'.head?, P b := by
  intro b hb
  rcases like with same | ⟨d, hd, hblank⟩
  · exact h b (same ▸ hb)
  · obtain rfl := Option.some.inj (hd.symm.trans hb)
    exact blank d hblank

/-- The bytes that a lexeme covers are recognized as the same lexeme with other bytes behind them,
if these begin alike or with a blank. A string without an end has nothing behind it. -/
theorem Recognized.exists_stable {source : List UInt8} {l : Lexeme} (h : Recognized source l) :
    ∃ covered rest, source = covered ++ rest ∧ l.length = covered.length
      ∧ (l.unclosed = true → rest = [])
      ∧ ∀ rest', FollowsLike rest rest' → (l.unclosed = true → rest' = []) →
        l.kind ≠ .eof → Recognized (covered ++ rest') l := by
  have head : ∀ {b : UInt8} {rest : List UInt8}, rest.head? ≠ some b
      ↔ ∀ d ∈ rest.head?, d ≠ b := by
    intro b rest
    cases rest <;> simp
  cases h with
  | eof => exact ⟨[], [], rfl, rfl, nofun, fun _ _ _ notEnd => absurd rfl notEnd⟩
  | @word word rest nonempty run =>
    refine ⟨word, rest, rfl, rfl, nofun, fun rest' like _ _ => .word nonempty ⟨run.inside, ?_⟩⟩
    exact like.forall_head isWordByte_of_isBlank run.outside
  | @integer digits rest nonempty run noPoint =>
    refine ⟨digits, rest, rfl, rfl, nofun,
      fun rest' like _ _ => .integer nonempty ⟨run.inside, ?_⟩ ?_⟩
    · exact like.forall_head isDigit_of_isBlank run.outside
    · exact head.mpr (like.forall_head (by rintro _ hb rfl; cases hb) (head.mp noPoint))
  | @float digits fraction rest nonempty whole run =>
    refine ⟨_, rest, rfl, rfl, nofun,
      fun rest' like _ _ => .float nonempty whole ⟨run.inside, ?_⟩⟩
    exact like.forall_head isDigit_of_isBlank run.outside
  | @closed content rest inside =>
    refine ⟨quoteMark :: (content ++ [quoteMark]), rest, by simp, by simp, nofun,
      fun rest' _ _ _ => ?_⟩
    rw [List.cons_append, List.append_assoc, List.singleton_append]
    exact .closed inside
  | @unclosed content inside =>
    refine ⟨quoteMark :: content, [], by simp, rfl, fun _ => rfl, fun rest' _ last _ => ?_⟩
    rw [last rfl, List.append_nil]
    exact .unclosed inside
  | @symbol kind rest listed longest =>
    refine ⟨_, rest, rfl, rfl, nofun, fun rest' like _ _ => .symbol listed fun short => ?_⟩
    exact head.mpr (like.forall_head (by rintro _ hb rfl; cases hb) (head.mp (longest short)))
  | @illegal b rest noWord noDigit noQuote noSymbol =>
    exact ⟨[b], rest, rfl, rfl, nofun,
      fun rest' _ _ _ => .illegal noWord noDigit noQuote noSymbol⟩

end Scriptlet.Lexeme
