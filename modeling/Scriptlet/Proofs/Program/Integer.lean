import Scriptlet.Proofs.Parse.Derivation
import Scriptlet.Proofs.Program.Printed
import Scriptlet.Proofs.Token.Insertion
import Scriptlet.Proofs.Token.Unclosed

/-!
# Integers on their own

A run of digits is one token, however long it is, and the only one of its source
(`IsNumeral.items_eq`). So it is read as one statement, which has the decimal value of the run if that
is in range, and no value and one problem if not. Zeros in front count for nothing. The other way
round, an integer that is not below zero is printed as such a run, and the shortest one.
-/

namespace Scriptlet

open Lexeme Text

/-- A run of decimal digits, at least one. -/
structure IsNumeral (digits : String) : Prop where
  nonempty : digits ≠ ""
  inside : ∀ c ∈ digits.toList, c.isDigit = true

namespace IsNumeral

variable {digits : String}

/-- Each digit is one byte. -/
theorem length_bytes (h : IsNumeral digits) : (bytes digits).length = digits.length := by
  rw [bytes_of_ascii (ascii_of_digits h.inside), List.length_map, String.length_toList]

/-- **A run of digits is the only token of its source**, and nothing is wrong with it. -/
theorem items_eq (h : IsNumeral digits) :
    (Cursor.ofText digits).items = [⟨⟨.integer, digits, ⟨0, digits.length⟩⟩, []⟩] := by
  have nonempty := bytes_ne_nil h.nonempty
  have inside := isDigit_of_mem_bytes h.inside
  have run : LongestRun isDigit (bytes digits) [] := ⟨inside, nofun⟩
  have recognized := recognize?_eq_some_iff.mp (recognize?_integer nonempty run nofun)
  rw [List.append_nil] at recognized
  have noGap : Gap.length (bytes digits) = 0 := by
    obtain ⟨b, rest, same⟩ := List.exists_cons_of_ne_nil nonempty
    obtain ⟨noBlank, noSlash⟩ := noGap_of_isDigit b (inside b (by rw [same]; simp))
    rw [same]
    exact Gap.length_of_token noBlank fun hs => absurd hs noSlash
  have step := Cursor.next_of_recognized (c := Cursor.ofText digits) rfl rfl .nil noGap recognized
  have legal : (plain .integer (bytes digits)).kind ≠ .illegal := nofun
  have literal : (plain .integer (bytes digits)).literal = digits :=
    (literal_of_ne_illegal legal).trans (decodeLossy_bytes digits)
  have left : (Cursor.ofText digits).next.2.items = [] := by
    refine Cursor.items_of_rest_nil ?_
    rw [step]
    exact List.drop_eq_nil_iff.mpr (Nat.le_of_eq (Nat.zero_add _).symm)
  have notEnd : (Cursor.ofText digits).next.1.kind ≠ .eof := by
    rw [step]
    nofun
  rw [Cursor.items_of_ne_eof notEnd, left, Cursor.found_of_next step, step, Cursor.token, literal,
    ← h.length_bytes]
  rfl

/-- What the only token stands for is the statement that is read, or the problem. -/
theorem parse_eq (h : IsNumeral digits) :
    match (Token.mk .integer digits ⟨0, digits.length⟩).operand with
    | .ok e => (parse digits).program = ⟨[.expr (some e)]⟩ ∧ (parse digits).problems = []
    | .error p => (parse digits).program = ⟨[.expr none]⟩ ∧ (parse digits).problems = [p] := by
  obtain ⟨problems, run, same⟩ := parse_run digits
  rw [h.items_eq] at run same
  split
  · next e operand =>
    obtain ⟨statements, rfl, -⟩ := (Run.step (.bare operand) .done).unique run
    exact ⟨congrArg Program.mk statements, same⟩
  · next p operand =>
    obtain ⟨statements, rfl, -⟩ := (Run.step (.bareNoValue rfl operand) .done).unique run
    exact ⟨congrArg Program.mk statements, same⟩

/-- The value of the run decides. -/
theorem operand_eq (h : IsNumeral digits) : (Token.mk .integer digits ⟨0, digits.length⟩).operand
      = if Numeral.decimal digits ≤ Numeral.greatest then
          .ok (.int (Int64.ofNat (Numeral.decimal digits)))
        else .error (.badInteger digits ⟨0, digits.length⟩ .tooLarge) := by
  have only : Cursor.Item.mk ⟨.integer, digits, ⟨0, digits.length⟩⟩ []
      ∈ (Cursor.ofText digits).items := by
    rw [h.items_eq]
    exact List.mem_singleton_self _
  exact (Cursor.lexed_of_mem_items _ _ only).operand_integer rfl

end IsNumeral

/-! ## Printed integers -/

theorem isNumeral_write {value : Int64} (h : 0 ≤ value) : IsNumeral (Numeral.write value) :=
  ⟨Numeral.write_ne_empty h, Numeral.isDigit_of_mem_write h⟩

/-- A printed integer stands for itself. -/
theorem operand_write {value : Int64} (h : 0 ≤ value) (span : Span) :
    (Token.mk .integer (Numeral.write value) span).operand = .ok (.int value) := by
  simp only [Token.operand, Numeral.read_write h]

/-- No zero is printed in front of another digit. -/
theorem not_padded_write {value : Int64} (h : 0 ≤ value) :
    ¬ Numeral.Padded (Numeral.write value) := by
  have again := Numeral.write_decimal (Numeral.write_ne_empty h) (Numeral.isDigit_of_mem_write h)
    (Numeral.decimal_write_le h)
  rw [Numeral.ofNat_decimal_write h] at again
  exact Numeral.unpadded_eq_iff.mp again.symm

/--
**A source that is a run of digits is one statement of its decimal value**, if that fits in 63 bits,
and one without a value if not, with the one problem that the whole run is too large. The length of
the run does not matter and neither do zeros in front. An integer that is not below zero is printed
as such a run, without zeros in front, and is read back from it.
-/
theorem parse_digits :
    (∀ digits : String, IsNumeral digits →
      (Numeral.decimal digits ≤ 0x7FFFFFFFFFFFFFFF → ∃ value : Int64,
          value.toInt = Numeral.decimal digits
          ∧ (parse digits).program = ⟨[.expr (some (.int value))]⟩ ∧ (parse digits).problems = [])
        ∧ (0x7FFFFFFFFFFFFFFF < Numeral.decimal digits →
          (parse digits).program = ⟨[.expr none]⟩
          ∧ (parse digits).problems = [.badInteger digits ⟨0, digits.length⟩ .tooLarge]))
      ∧ ∀ value : Int64, 0 ≤ value →
        let text := (Expr.int value).render
        IsNumeral text ∧ ¬ Numeral.Padded text ∧ Numeral.decimal text = value.toInt
          ∧ (parse text).program = ⟨[.expr (some (.int value))]⟩ ∧ (parse text).problems = [] := by
  have greatest : Numeral.greatest = 0x7FFFFFFFFFFFFFFF := rfl
  rw [← greatest]
  constructor
  · intro digits h
    have parsed := h.parse_eq
    rw [h.operand_eq] at parsed
    constructor
    · intro low
      rw [if_pos low] at parsed
      exact ⟨_, Numeral.toInt_ofNat low, parsed⟩
    · intro high
      rw [if_neg (Nat.not_le_of_lt high)] at parsed
      exact parsed
  · intro value h text
    have numeral : IsNumeral text := isNumeral_write h
    have value_eq : (Numeral.decimal text : Int) = value.toInt := calc
      (Numeral.decimal text : Int)
      _ = value.toNatClampNeg := congrArg _ (Numeral.decimal_write h)
      _ = value.toInt := Int64.cast_toNatClampNeg value h
    have operand : (Token.mk .integer text ⟨0, text.length⟩).operand = .ok (.int value) :=
      operand_write h _
    have parsed := numeral.parse_eq
    rw [operand] at parsed
    exact ⟨numeral, not_padded_write h, value_eq, parsed⟩

/-- One above the greatest value, with zeros in front, and the greatest value itself. -/
theorem parse_digits_at_bound :
    IsNumeral "009223372036854775808"
      ∧ 0x7FFFFFFFFFFFFFFF < Numeral.decimal "009223372036854775808"
      ∧ (parse "009223372036854775808").program = ⟨[.expr none]⟩
      ∧ (parse "009223372036854775808").problems
        = [.badInteger "009223372036854775808" ⟨0, 21⟩ .tooLarge]
      ∧ 0 ≤ Int64.maxValue
      ∧ (parse (Expr.int Int64.maxValue).render).program
        = ⟨[.expr (some (.int Int64.maxValue))]⟩ := by
  have numeral : IsNumeral "009223372036854775808" :=
    ⟨by decide, List.all_eq_true.mp (by decide +kernel)⟩
  have high : 0x7FFFFFFFFFFFFFFF < Numeral.decimal "009223372036854775808" := by decide +kernel
  have positive : 0 ≤ Int64.maxValue := by decide
  obtain ⟨program, problems⟩ := (parse_digits.1 _ numeral).2 high
  obtain ⟨-, -, -, printed, -⟩ := parse_digits.2 _ positive
  exact ⟨numeral, high, program, problems, positive, printed⟩

end Scriptlet
