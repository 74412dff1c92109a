import Scriptlet.Program.Printer
import Scriptlet.Proofs.Parse.Grammar

/-!
# Printed programs as terminals

`Program.WellFormed` says which programs can be written down at all: names have to be identifiers,
integers have no sign, and no expression is absent. A statement of such a program is printed as a
phrase that spells it (`Statement.exists_written`), as long as what follows does not carry on with
its last token (`EndsBefore`). Only an expression on its own has to fear that, since all other
statements end in `;`.
-/

namespace Scriptlet

open Lexeme Text

/-! ## Well-formed programs -/

/-- A name that is an identifier. -/
structure IsName (name : String) : Prop where
  nonempty : name ≠ ""
  letters : ∀ c ∈ name.toList, c.isAlpha = true ∨ c = '_'
  notReserved : name ∉ Kind.keywords.map Prod.fst

instance (name : String) : Decidable (IsName name) :=
  -- the letters are looked at one by one, and not all characters
  haveI : Decidable (∀ c ∈ name.toList, c.isAlpha = true ∨ c = '_') := List.decidableBAll _ _
  decidable_of_iff (name ≠ "" ∧ (∀ c ∈ name.toList, c.isAlpha = true ∨ c = '_')
    ∧ name ∉ Kind.keywords.map Prod.fst)
    ⟨fun ⟨nonempty, letters, notReserved⟩ => ⟨nonempty, letters, notReserved⟩,
      fun ⟨nonempty, letters, notReserved⟩ => ⟨nonempty, letters, notReserved⟩⟩

def Expr.WellFormed : Expr → Prop
  | .ident name => IsName name
  | .int value => 0 ≤ value

def Statement.WellFormed : Statement → Prop
  | .bind name value => IsName name ∧ value.WellFormed
  | .ret (some value) => value.WellFormed
  | .ret none => True
  | .expr (some value) => value.WellFormed
  | .expr none => False

/-- The statements can be written down. -/
def Program.WellFormed (p : Program) : Prop := ∀ s ∈ p.statements, s.WellFormed

instance : (e : Expr) → Decidable e.WellFormed
  | .ident name => inferInstanceAs (Decidable (IsName name))
  | .int value => inferInstanceAs (Decidable (0 ≤ value))

instance : (s : Statement) → Decidable s.WellFormed
  | .bind name value => inferInstanceAs (Decidable (IsName name ∧ value.WellFormed))
  | .ret (some value) => inferInstanceAs (Decidable value.WellFormed)
  | .ret none => .isTrue trivial
  | .expr (some value) => inferInstanceAs (Decidable value.WellFormed)
  | .expr none => .isFalse id

instance (p : Program) : Decidable p.WellFormed :=
  inferInstanceAs (Decidable (∀ s ∈ p.statements, s.WellFormed))

/-! ## Letters and digits as bytes -/

theorem toNat_of_letter {c : Char} (h : c.isAlpha = true ∨ c = '_') :
    (65 ≤ c.toNat ∧ c.toNat ≤ 90 ∨ 97 ≤ c.toNat ∧ c.toNat ≤ 122) ∨ c.toNat = 95 := by
  rcases h with h | rfl
  · have h : (decide (65 ≤ c.val ∧ c.val ≤ 90)
        || decide (97 ≤ c.val) && decide (c.val ≤ 122)) = true := h
    simp only [Bool.or_eq_true, Bool.and_eq_true, decide_eq_true_eq] at h
    exact .inl h
  · exact .inr rfl

theorem isWordByte_of_letter {b : UInt8} {c : Char} (same : b.toNat = c.toNat)
    (h : c.isAlpha = true ∨ c = '_') : isWordByte b = true := by
  have range := toNat_of_letter h
  rw [← same] at range
  simp only [isWordByte, Bool.or_eq_true, Bool.and_eq_true, decide_eq_true_eq, beq_iff_eq]
  rcases range with h | h
  · exact .inl h
  · exact .inr (UInt8.toNat_inj.mp h)

theorem letter_of_isWordByte : ∀ b, isWordByte b = true →
    (Char.ofNat b.toNat).isAlpha = true ∨ Char.ofNat b.toNat = '_' :=
  forall_byte (by decide +kernel)

theorem toNat_of_isDigit {c : Char} (h : c.isDigit = true) : 48 ≤ c.toNat ∧ c.toNat ≤ 57 := by
  simp only [Char.isDigit, Bool.and_eq_true, decide_eq_true_eq] at h
  exact h

theorem isDigit_of_toNat {b : UInt8} {c : Char} (same : b.toNat = c.toNat)
    (h : c.isDigit = true) : isDigit b = true := by
  have range := toNat_of_isDigit h
  rw [← same] at range
  simp only [isDigit, Bool.and_eq_true, decide_eq_true_eq]
  exact range

/-! ## Names and numerals -/

namespace IsName

variable {name : String}

theorem ascii (h : IsName name) : ∀ c ∈ name.toList, c.toNat < 0x80 := by
  intro c hc
  have := toNat_of_letter (h.letters c hc)
  omega

theorem isWordByte (h : IsName name) : ∀ b ∈ bytes name, isWordByte b = true := by
  intro b hb
  obtain ⟨c, hc, same⟩ := exists_char_of_mem_bytes h.ascii hb
  exact isWordByte_of_letter same (h.letters c hc)

theorem ofWord_eq (h : IsName name) : Kind.ofWord name = .identifier := by
  by_cases hk : Kind.ofWord name = .identifier
  · exact hk
  · exact absurd (List.mem_map_of_mem (mem_keywords_of_ofWord hk)) h.notReserved

/-- A name is an identifier if no other word byte follows it. -/
theorem terminalsOf_append (h : IsName name) {rest : List UInt8}
    (ends : ∀ b ∈ rest.head?, Lexeme.isWordByte b = false) :
    terminalsOf (bytes name ++ rest) = ⟨.identifier, name⟩ :: terminalsOf rest := by
  rw [terminalsOf_word (bytes_ne_nil h.nonempty) ⟨h.isWordByte, ends⟩,
    ofByteValues_bytes h.ascii, h.ofWord_eq]

/-- The identifiers that are recognized are names. -/
theorem of_lexed {i : Cursor.Item} (h : i.Lexed) (hk : i.token.kind = .identifier) :
    IsName i.token.literal := by
  obtain ⟨source, l, recognized, -, kind, literal, -⟩ := h
  obtain ⟨word, nonempty, inside, same, identifier⟩ := recognized.of_identifier (kind.symm.trans hk)
  rw [literal]
  constructor
  · rw [same]
    exact ofByteValues_ne_empty nonempty
  · intro c hc
    rw [same] at hc
    obtain ⟨b, hb, rfl⟩ := exists_byte_of_mem_ofByteValues hc
    exact letter_of_isWordByte b (inside b hb)
  · intro reserved
    obtain ⟨⟨_, k⟩, listed, rfl⟩ := List.mem_map.mp reserved
    obtain ⟨word, other⟩ := Kind.ofWord_of_mem_keywords listed
    exact other (word.symm.trans identifier)

end IsName

theorem ascii_of_digits {digits : String} (h : ∀ c ∈ digits.toList, c.isDigit = true) :
    ∀ c ∈ digits.toList, c.toNat < 0x80 := by
  intro c hc
  have := toNat_of_isDigit (h c hc)
  omega

theorem isDigit_of_mem_bytes {digits : String} (h : ∀ c ∈ digits.toList, c.isDigit = true) :
    ∀ b ∈ bytes digits, isDigit b = true := by
  intro b hb
  obtain ⟨c, hc, same⟩ := exists_char_of_mem_bytes (ascii_of_digits h) hb
  exact isDigit_of_toNat same (h c hc)

/-- A numeral without a sign is a run of digits. -/
theorem isDigit_of_mem_bytes_write {value : Int64} (h : 0 ≤ value) :
    ∀ b ∈ bytes (Numeral.write value), isDigit b = true :=
  isDigit_of_mem_bytes (Numeral.isDigit_of_mem_write h)

theorem terminalsOf_write {value : Int64} (h : 0 ≤ value) {rest : List UInt8}
    (ends : ∀ b ∈ rest.head?, isDigit b = false ∧ b ≠ point) :
    terminalsOf (bytes (Numeral.write value) ++ rest)
      = ⟨.integer, Numeral.write value⟩ :: terminalsOf rest := by
  have run : LongestRun isDigit (bytes (Numeral.write value)) rest :=
    ⟨isDigit_of_mem_bytes_write h, fun b hb => (ends b hb).1⟩
  have noPoint : rest.head? ≠ some point := fun hp => (ends point hp).2 rfl
  have text : ofByteValues (bytes (Numeral.write value)) = Numeral.write value :=
    ofByteValues_bytes (ascii_of_digits (Numeral.isDigit_of_mem_write h))
  rw [terminalsOf_integer (bytes_ne_nil (Numeral.write_ne_empty h)) run noPoint, text]

/-! ## Expressions -/

namespace Expr

/-- What the expression is printed as. -/
def written : Expr → Value
  | ident name => .name name
  | int value => .numeral (Numeral.write value)

/-- What follows does not carry on with the token that the expression is. -/
def EndsBefore : Expr → List UInt8 → Prop
  | ident _, rest => ∀ b ∈ rest.head?, isWordByte b = false
  | int _, rest => ∀ b ∈ rest.head?, isDigit b = false ∧ b ≠ point

variable {e : Expr}

theorem inRange_written (wf : e.WellFormed) : e.written.InRange := by
  cases e with
  | ident => trivial
  | int value =>
    rw [written, Value.InRange]
    exact Numeral.decimal_write_le wf

theorem expr_written (wf : e.WellFormed) : e.written.expr = e := by
  cases e with
  | ident => rfl
  | int value => rw [written, Value.expr, Numeral.ofNat_decimal_write wf]

theorem terminalsOf_render (wf : e.WellFormed) {rest : List UInt8} (ends : e.EndsBefore rest) :
    terminalsOf (bytes e.render ++ rest) = e.written.terminal :: terminalsOf rest := by
  cases e with
  | ident => exact IsName.terminalsOf_append wf ends
  | int => exact terminalsOf_write wf ends

theorem endsBefore_semicolon (e : Expr) (rest : List UInt8) : e.EndsBefore (bytes ";" ++ rest) := by
  cases e with
  | ident =>
    rintro b ⟨⟩
    decide
  | int =>
    rintro b ⟨⟩
    decide

end Expr

/-! ## Statements -/

theorem terminalsOf_space (rest : List UInt8) :
    terminalsOf (bytes " " ++ rest) = terminalsOf rest :=
  terminalsOf_blank rfl rest

/-- A keyword is one if no other word byte follows it. -/
theorem terminalsOf_keyword {k : Kind} (hk : k = .letWord ∨ k = .returnWord) {rest : List UInt8}
    (ends : ∀ b ∈ rest.head?, isWordByte b = false) :
    terminalsOf (bytes k.symbol ++ rest) = k.terminal :: terminalsOf rest := by
  rcases hk with rfl | rfl
  · exact terminalsOf_word (by decide) ⟨by decide +kernel, ends⟩
  · exact terminalsOf_word (by decide) ⟨by decide +kernel, ends⟩

namespace Statement

/-- What follows does not carry on with the last token of the statement. -/
def EndsBefore : Statement → List UInt8 → Prop
  | expr (some e), rest => e.EndsBefore rest
  | _, _ => True

/-- **A statement is printed as a phrase that spells it.** -/
theorem exists_written {s : Statement} (wf : s.WellFormed) : ∃ p : Phrase, p.statement = s
    ∧ (∀ ts, p.Admits ts) ∧ ∀ rest, s.EndsBefore rest →
      terminalsOf (bytes s.render ++ rest) = p.yield ++ terminalsOf rest := by
  cases s with
  | bind name value =>
    obtain ⟨isName, wf⟩ := wf
    refine ⟨.bind name value.written true, ?_, fun _ => value.inRange_written wf, ?_⟩
    · rw [Phrase.statement, value.expr_written wf]
    · intro rest _
      -- the `=` is a symbol of its own because of the blank behind it
      have sign : bytes " = " = bytes " " ++ bytes "= " := rfl
      simp only [render, bytes_append, List.append_assoc, sign]
      rw [terminalsOf_keyword (.inl rfl) (by rintro b ⟨⟩; decide), terminalsOf_space,
        isName.terminalsOf_append (by rintro b ⟨⟩; decide), terminalsOf_space, terminalsOf_assign,
        value.terminalsOf_render wf (value.endsBefore_semicolon rest), terminalsOf_semicolon]
      rfl
  | ret value =>
    cases value with
    | some value =>
      refine ⟨.give value.written true, ?_, fun _ => value.inRange_written wf, ?_⟩
      · rw [Phrase.statement, value.expr_written wf]
      · intro rest _
        simp only [render, bytes_append, List.append_assoc]
        rw [terminalsOf_keyword (.inr rfl) (by rintro b ⟨⟩; decide), terminalsOf_space,
          value.terminalsOf_render wf (value.endsBefore_semicolon rest), terminalsOf_semicolon]
        rfl
    | none =>
      refine ⟨.giveNone, rfl, fun _ => trivial, ?_⟩
      intro rest _
      simp only [render, bytes_append, List.append_assoc]
      rw [terminalsOf_keyword (.inr rfl) (by rintro b ⟨⟩; decide), terminalsOf_semicolon]
      rfl
  | expr value =>
    cases value with
    | some value =>
      refine ⟨.bare value.written false, ?_, fun _ => value.inRange_written wf, ?_⟩
      · rw [Phrase.statement, value.expr_written wf]
      · exact fun rest ends => value.terminalsOf_render wf ends
    | none => exact wf.elim

end Statement

end Scriptlet
