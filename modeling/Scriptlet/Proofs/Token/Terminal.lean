import Scriptlet.Proofs.Token.Completeness
import Scriptlet.Proofs.Token.Stream

/-!
# Terminals

A terminal is what a token is without its place. The terminals of a source depend on nothing but
its bytes, so they can be read off from the front: a blank leaves none (`terminalsOf_blank`), a word
or a run of digits leaves one, provided that the run ends where it is cut (`terminalsOf_word`,
`terminalsOf_integer`), and so do `=` and `;`.
-/

namespace Scriptlet

open Cursor Lexeme Text

/-- What a token is without its place. -/
structure Terminal where
  kind : Kind
  text : String
deriving DecidableEq

def Token.terminal (t : Token) : Terminal := ⟨t.kind, t.literal⟩

/-- The terminal that is the symbol of its kind. -/
def Kind.terminal (k : Kind) : Terminal := ⟨k, k.symbol⟩

/-- The terminals of a stored source. -/
def terminalsOf (source : List UInt8) : List Terminal :=
  (Cursor.ofBytes source).remaining.map Token.terminal

/-- The terminals in front of a cursor are those of the bytes in front of it. -/
theorem Cursor.map_terminal_remaining {c : Cursor} (h : c.exhausted = false) :
    c.remaining.map Token.terminal = terminalsOf c.rest := by
  have place : (Cursor.ofBytes c.rest).moved c.offset = c.forget := by
    simp only [moved, ofBytes, forget, h, Nat.add_zero]
  rw [remaining_eq, ← items_forget, ← place, ← remaining_eq, remaining_moved, List.map_map]
  rfl

/-! ## One lexeme -/

/-- The terminals of a source are that of its first lexeme and those of the rest. -/
theorem terminalsOf_of_recognize {source : List UInt8} {l : Lexeme}
    (found : recognize? (source.drop (Gap.length source)) = some l) : terminalsOf source
      = if l.kind = .eof then []
        else ⟨l.kind, l.literal⟩ :: terminalsOf (source.drop (Gap.length source + l.length)) := by
  have step : (Cursor.ofBytes source).next = ((Cursor.ofBytes source).token (Gap.length source) l,
      (Cursor.ofBytes source).past (Gap.length source) l) := by
    have found : recognize? ((Cursor.ofBytes source).rest.drop
        (Gap.length (Cursor.ofBytes source).rest)) = some l := found
    simp only [next, found]
    rfl
  have kind : (Cursor.ofBytes source).next.1.kind = l.kind := by
    rw [step]
    rfl
  split
  · next hk => rw [terminalsOf, remaining_of_eof (kind.trans hk), List.map_nil]
  · next hk =>
    have goesOn : (Cursor.ofBytes source).next.2.exhausted = false := by
      rw [step]
      exact beq_eq_false_iff_ne.mpr hk
    rw [terminalsOf, remaining_of_ne_eof (by rw [kind]; exact hk), List.map_cons,
      map_terminal_remaining goesOn, step]
    rfl

theorem terminalsOf_nil : terminalsOf [] = [] :=
  (terminalsOf_of_recognize (l := plain .eof []) rfl).trans (if_pos rfl)

/-- A blank leaves no terminal. -/
theorem terminalsOf_blank {b : UInt8} (h : Gap.isBlank b = true) (source : List UInt8) :
    terminalsOf (b :: source) = terminalsOf source := by
  obtain ⟨l, found⟩ := Option.isSome_iff_exists.mp
    (recognize?_isSome (source.drop (Gap.length source)))
  have hlen := Gap.length_blank h source
  have found' : recognize? ((b :: source).drop (Gap.length (b :: source))) = some l := by
    rw [hlen, List.drop_succ_cons, found]
  rw [terminalsOf_of_recognize found, terminalsOf_of_recognize found', hlen, Nat.add_right_comm,
    List.drop_succ_cons]

/-- A source that begins with a lexeme. -/
theorem terminalsOf_append {covered rest : List UInt8} {l : Lexeme}
    (found : recognize? (covered ++ rest) = some l) (hk : l.kind ≠ .eof)
    (hlen : l.length = covered.length)
    (noGap : ∀ b ∈ covered.head?, Gap.isBlank b = false ∧ b ≠ Gap.slash) :
    terminalsOf (covered ++ rest) = ⟨l.kind, l.literal⟩ :: terminalsOf rest := by
  -- no gap is in front, neither a blank nor a comment
  have none : Gap.length (covered ++ rest) = 0 := by
    cases covered with
    | nil => exact absurd (length_pos_of_recognize? found hk).1 (by rw [hlen]; simp)
    | cons b covered =>
      obtain ⟨noBlank, noSlash⟩ := noGap b rfl
      exact Gap.length_of_token noBlank fun hs => absurd hs noSlash
  have found' : recognize? ((covered ++ rest).drop (Gap.length (covered ++ rest))) = some l := by
    rw [none, List.drop_zero, found]
  rw [terminalsOf_of_recognize found', if_neg hk, none, Nat.zero_add, hlen, List.drop_left]

/-! ## Words, integers and symbols -/

theorem terminalsOf_word {word rest : List UInt8} (nonempty : word ≠ [])
    (run : LongestRun isWordByte word rest) : terminalsOf (word ++ rest)
      = ⟨Kind.ofWord (ofByteValues word), ofByteValues word⟩ :: terminalsOf rest := by
  have noGap : ∀ b ∈ word.head?, Gap.isBlank b = false ∧ b ≠ Gap.slash := fun b hb =>
    noGap_of_isWordByte b (run.inside b (List.mem_of_mem_head? hb))
  rw [terminalsOf_append (recognize?_word nonempty run) (ofWord_ne (by decide) _) rfl noGap,
    literal_word run]
  rfl

theorem terminalsOf_integer {digits rest : List UInt8} (nonempty : digits ≠ [])
    (run : LongestRun isDigit digits rest) (noPoint : rest.head? ≠ some point) :
    terminalsOf (digits ++ rest) = ⟨.integer, ofByteValues digits⟩ :: terminalsOf rest := by
  have noGap : ∀ b ∈ digits.head?, Gap.isBlank b = false ∧ b ≠ Gap.slash := fun b hb =>
    noGap_of_isDigit b (run.inside b (List.mem_of_mem_head? hb))
  rw [terminalsOf_append (recognize?_integer nonempty run noPoint) nofun rfl noGap,
    literal_plain (by decide) fun b hb => isAscii_of_isDigit (run.inside b hb)]
  rfl

/-- A symbol stands for itself. -/
theorem terminalsOf_symbol {k : Kind} {rest : List UInt8}
    (found : recognize? (bytes k.symbol ++ rest) = some (plain k (bytes k.symbol)))
    (notEnd : k ≠ .eof) (legal : k ≠ .illegal)
    (noGap : ∀ b ∈ (bytes k.symbol).head?, Gap.isBlank b = false ∧ b ≠ Gap.slash) :
    terminalsOf (bytes k.symbol ++ rest) = k.terminal :: terminalsOf rest := by
  have same : (plain k (bytes k.symbol)).literal = k.symbol :=
    (literal_of_ne_illegal legal).trans (decodeLossy_bytes k.symbol)
  rw [terminalsOf_append found notEnd rfl noGap, same]
  rfl

/-- The byte of `;` is a symbol whatever follows it. -/
theorem terminalsOf_semicolon (rest : List UInt8) :
    terminalsOf (bytes ";" ++ rest) = Kind.semicolon.terminal :: terminalsOf rest :=
  terminalsOf_symbol (k := .semicolon) rfl nofun nofun (by decide +kernel)

/-- The byte of `=` is a symbol of its own if a blank follows it. -/
theorem terminalsOf_assign (rest : List UInt8) :
    terminalsOf (bytes "= " ++ rest) = Kind.assign.terminal :: terminalsOf rest := by
  have blank : terminalsOf (bytes " " ++ rest) = terminalsOf rest := terminalsOf_blank rfl rest
  have parts : bytes "= " ++ rest = bytes "=" ++ (bytes " " ++ rest) := rfl
  rw [parts, ← blank]
  exact terminalsOf_symbol (k := .assign) rfl nofun nofun (by decide +kernel)

end Scriptlet
