import Scriptlet.Text.Utf8
import Scriptlet.Token.Kind

/-!
# Lexemes

A lexeme is what a source shows at its front: the kind of the token there, how many bytes it
covers and which bytes are its text. There is one recognizer for each class of tokens, and the
first that accepts decides. The last one takes any byte, so something is recognized in front of
every source, and all of them but the one for the end take at least one byte.
-/

namespace Scriptlet

/-- A token at the front of a source. -/
structure Lexeme where
  kind : Kind
  /-- The number of bytes covered. -/
  length : Nat
  /-- The bytes of the text, of a string those between the quotes. -/
  content : List UInt8
  /-- Whether the closing quote of a string is missing. -/
  unclosed : Bool
deriving DecidableEq

namespace Lexeme

/-- A lexeme whose text is all it covers. -/
def plain (kind : Kind) (content : List UInt8) : Lexeme := ⟨kind, content.length, content, false⟩

/-! ## Classes of bytes -/

/-- Whether a byte belongs to a word: an ASCII letter or `_`. -/
def isWordByte (b : UInt8) : Bool := (65 ≤ b && b ≤ 90) || (97 ≤ b && b ≤ 122) || b == 95

/-- Whether a byte is a decimal digit. -/
def isDigit (b : UInt8) : Bool := 48 ≤ b && b ≤ 57

/-- The byte of `.`. -/
def point : UInt8 := 46

/-- The byte of `"`. -/
def quoteMark : UInt8 := 34

/-! ## Recognizers -/

/-- The end of the source. -/
def eof? : List UInt8 → Option Lexeme
  | [] => some (plain .eof [])
  | _ :: _ => none

/-- The longest word, a keyword or an identifier. -/
def word? (source : List UInt8) : Option Lexeme :=
  match source.takeWhile isWordByte with
  | [] => none
  | word => some (plain (Kind.ofWord (Text.ofByteValues word)) word)

theorem length_pos_of_word? {source : List UInt8} {l : Lexeme} (h : word? source = some l) :
    0 < l.length := by
  unfold word? at h
  split at h
  · cases h
  · next word hne =>
    cases h
    exact List.length_pos_iff.2 hne

/-- A run of digits is an integer. With a point right after it, it is a float, and the digits after
the point, which may be missing, belong to it. -/
def number? (source : List UInt8) : Option Lexeme :=
  match source.takeWhile isDigit with
  | [] => none
  | digits =>
    match source.drop digits.length with
    | [] => some (plain .integer digits)
    | b :: rest =>
      if b = point then some (plain .float (digits ++ point :: rest.takeWhile isDigit))
      else some (plain .integer digits)

theorem length_pos_of_number? {source : List UInt8} {l : Lexeme} (h : number? source = some l) :
    0 < l.length := by
  unfold number? at h
  split at h
  · cases h
  · next digits hne =>
    have pos : 0 < (source.takeWhile isDigit).length := List.length_pos_iff.2 hne
    repeat' split at h
    all_goals
      cases h
      simp only [plain, List.length_append]
      omega

/-- A string goes from a quote to the next one, or to the end of the source. Nothing in it has a
special meaning. -/
def string? : List UInt8 → Option Lexeme
  | [] => none
  | b :: rest =>
    if b = quoteMark then
      let content := rest.takeWhile (· != quoteMark)
      let unclosed := content.length == rest.length
      some ⟨.string, content.length + (if unclosed then 1 else 2), content, unclosed⟩
    else none

theorem length_pos_of_string? {source : List UInt8} {l : Lexeme} (h : string? source = some l) :
    0 < l.length := by
  unfold string? at h
  split at h
  · cases h
  · split at h
    · cases h
      simp only
      split <;> omega
    · cases h

/-- Operators, then punctuation. Of two that begin alike the longer one stands first. -/
def symbols : List Kind := [
  .eq, .neq, .assign, .bang, .plus, .minus, .star, .slash, .lt, .gt,
  .comma, .semicolon, .colon,
  .leftParen, .rightParen, .leftCurly, .rightCurly, .leftBracket, .rightBracket]

/-- The first operator or punctuation mark that the source begins with. -/
def symbol? (source : List UInt8) : Option Lexeme :=
  (symbols.find? fun kind => (Text.bytes kind.symbol).isPrefixOf source).map fun kind =>
    plain kind (Text.bytes kind.symbol)

theorem length_pos_of_symbol? {source : List UInt8} {l : Lexeme} (h : symbol? source = some l) :
    0 < l.length := by
  obtain ⟨kind, found, rfl⟩ := Option.map_eq_some_iff.1 h
  have listed : ∀ k ∈ symbols, 0 < (Text.bytes k.symbol).length := by decide
  exact listed kind (List.mem_of_find?_eq_some found)

/-- Any byte, which is then an illegal one. -/
def illegal? : List UInt8 → Option Lexeme
  | [] => none
  | b :: _ => some (plain .illegal [b])

theorem length_pos_of_illegal? {source : List UInt8} {l : Lexeme} (h : illegal? source = some l) :
    0 < l.length := by
  cases source with
  | nil => cases h
  | cons b rest =>
    cases h
    exact Nat.one_pos

/-- The recognizers in the order they are tried. -/
def recognizers : List (List UInt8 → Option Lexeme) :=
  [eof?, word?, number?, string?, symbol?, illegal?]

/-- What stands at the front of a source. -/
def recognize? (source : List UInt8) : Option Lexeme :=
  recognizers.findSome? fun recognizer => recognizer source

/-- Something is recognized in front of every source. -/
theorem recognize?_isSome (source : List UInt8) : (recognize? source).isSome := by
  cases source with
  | nil => rfl
  | cons b rest =>
    rw [recognize?, List.findSome?_isSome_iff]
    exact ⟨illegal?, by simp [recognizers], rfl⟩

/-- Every lexeme but the end takes at least one byte, and there is one to take. -/
theorem length_pos_of_recognize? {source : List UInt8} {l : Lexeme}
    (h : recognize? source = some l) (hk : l.kind ≠ .eof) : 0 < l.length ∧ source ≠ [] := by
  cases source with
  | nil => cases h; exact absurd rfl hk
  | cons b rest =>
    refine ⟨?_, by simp⟩
    obtain ⟨recognizer, mem, accepted⟩ := List.exists_of_findSome?_eq_some h
    simp only [recognizers, List.mem_cons, List.not_mem_nil, or_false] at mem
    rcases mem with rfl | rfl | rfl | rfl | rfl | rfl
    · cases accepted
    · exact length_pos_of_word? accepted
    · exact length_pos_of_number? accepted
    · exact length_pos_of_string? accepted
    · exact length_pos_of_symbol? accepted
    · exact length_pos_of_illegal? accepted

/-! ## Text -/

/-- The text of a lexeme. An illegal byte is shown as the character with its value. -/
def literal (l : Lexeme) : String :=
  if l.kind = .illegal then Text.ofByteValues l.content else Text.decodeLossy l.content

end Lexeme

end Scriptlet
