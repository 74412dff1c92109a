import Scriptlet.Proofs.Parse.Derivation
import Scriptlet.Program.Printer

/-!
# The token a statement opens with

A statement keeps no tokens, and what it opens with is made again from what was kept: from the
keyword, from the name, or from the value of an integer. For a source without problems that is the
text of the token at which the statement was begun, but for one thing: an integer has lost the zeros
in front (`openings_eq`).

That every problem is excluded is needed: a broken statement was begun and is not kept, and an
expression that could not be built is kept and opens with nothing.
-/

namespace Scriptlet

open Cursor (Item)

/-! ## Tokens without zeros in front -/

namespace Token

/-- The text of a token, of an integer the one without zeros in front. -/
def plainText (t : Token) : String :=
  if t.kind = .integer then Numeral.unpadded t.literal else t.literal

/-- Whether this is an integer with a zero in front. -/
def Padded (t : Token) : Prop := t.kind = .integer ∧ Numeral.Padded t.literal

instance (t : Token) : Decidable t.Padded := inferInstanceAs (Decidable (_ ∧ _))

theorem plainText_of_kind {t : Token} {k : Kind} (hk : t.kind = k) (other : k ≠ .integer) :
    t.plainText = t.literal := if_neg (by rw [hk]; exact other)

theorem plainText_eq_iff {t : Token} : t.plainText = t.literal ↔ ¬ t.Padded := by
  rw [plainText, Padded]
  split
  · next hk => rw [Numeral.unpadded_eq_iff, and_iff_right hk]
  · next hk => exact iff_of_true rfl fun padded => hk padded.1

end Token

/-! ## Statements -/

variable {stop : Nat} {i : Item} {rest items behind : List Item} {s : Option Statement}

/-- A token of fixed text is that text. -/
theorem Cursor.Item.Lexed.plainText_eq_symbol (h : i.Lexed) {k : Kind} (hk : i.token.kind = k)
    (fixed : k ∉ Lexeme.variableKinds) : i.token.plainText = k.symbol := by
  have other : k ≠ .integer := fun same => fixed (by rw [same]; decide)
  rw [Token.plainText_of_kind hk other]
  exact congrArg Terminal.text (h.terminal_eq hk fixed)

/-- A value opens with its token, a name as it is and an integer without zeros in front. -/
theorem Cursor.Item.Lexed.opening_of_operand (h : i.Lexed) {e : Expr}
    (operand : i.token.operand = .ok e) : e.opening = i.token.plainText := by
  by_cases name : i.token.kind = .identifier
  · simp only [Token.operand, name, Except.ok.injEq] at operand
    rw [Token.plainText_of_kind name (by decide), ← operand]
    rfl
  by_cases numeral : i.token.kind = .integer
  · obtain ⟨nonempty, digits⟩ := h.digits_of_integer numeral
    rw [h.operand_integer numeral] at operand
    split at operand
    · next low =>
      cases operand
      rw [Token.plainText, if_pos numeral, ← Numeral.write_decimal nonempty digits low]
      rfl
    · cases operand
  · exact absurd operand (Token.operand_of_fixed rfl name numeral)

/-- A complete statement opens with the token at which it was begun. -/
theorem Reads.opening {found : List Problem} (h : Reads stop (i :: rest) s found behind)
    (clean : found = []) (lexed : i.Lexed) :
    ∃ statement, s = some statement ∧ statement.opening = i.token.plainText := by
  cases h with
  | bind hi => exact ⟨_, rfl, (lexed.plainText_eq_symbol hi (by decide)).symm⟩
  | returnEnd hi | returnMark hi | returnValue hi =>
    exact ⟨_, rfl, (lexed.plainText_eq_symbol hi (by decide)).symm⟩
  | bare operand => exact ⟨_, rfl, lexed.opening_of_operand operand⟩
  | bindNoName | bindNoSign | bareNoValue => cases clean
  | bindNoValue | returnNoValue => exact absurd clean (by simp)

/-! ## Whole sources -/

variable {statements : List Statement} {problems : List Problem} {begun : List Token}

/-- In a run without problems every statement that was begun is kept, and opens with its token. -/
theorem Run.openings (h : Run stop items statements problems begun) (clean : problems = [])
    (lexed : ∀ i ∈ items, i.Lexed) :
    statements.map Statement.opening = begun.map Token.plainText := by
  induction h with
  | done => rfl
  | step reads more ih =>
    obtain ⟨none, later⟩ := List.append_eq_nil_iff.mp clean
    obtain ⟨statement, rfl, opening⟩ := reads.opening none (lexed _ List.mem_cons_self)
    have tail := ih (List.append_eq_nil_iff.mp later).2 (reads.lexed_tail lexed)
    rw [Option.toList_some, List.singleton_append, List.map_cons, List.map_cons, opening, tail]

/-- The first statement is begun at the first token. -/
theorem Run.head?_begun (h : Run stop items statements problems begun) :
    begun.head? = items.head?.map Item.token := by
  cases h with
  | done | step => rfl

theorem Program.opening_eq (p : Program) :
    p.opening = ((p.statements.map Statement.opening).head?).getD "" := by
  rw [opening]
  cases p.statements with
  | nil | cons => rfl

/-- The texts are those of the tokens if and only if no token has zeros in front. -/
theorem map_plainText_eq_iff {ts : List Token} :
    ts.map Token.plainText = ts.map Token.literal ↔ ∀ t ∈ ts, ¬ t.Padded := by
  rw [List.map_inj_left]
  exact forall₂_congr fun t _ => Token.plainText_eq_iff

/--
**For a source without problems every statement opens with the token at which it was begun**, the
program with the first token of the source, and with nothing if there is none. An integer comes
without the zeros in front, so the texts are those of the tokens if and only if none of these
tokens is an integer with a zero in front.
-/
theorem openings_eq {source : String} (clean : (parse source).problems = []) :
    (parse source).program.statements.map Statement.opening
        = (parse source).begun.map Token.plainText
      ∧ ((parse source).program.statements.map Statement.opening
          = (parse source).begun.map Token.literal ↔ ∀ t ∈ (parse source).begun, ¬ t.Padded)
      ∧ (parse source).program.opening = ((tokens source).head?.map Token.plainText).getD ""
      ∧ ((parse source).program.opening = ((tokens source).head?.map Token.literal).getD ""
          ↔ ∀ t ∈ (tokens source).head?, ¬ t.Padded) := by
  obtain ⟨problems, run, same⟩ := parse_run source
  rw [same, List.append_eq_nil_iff] at clean
  have openings := run.openings clean.2 (Cursor.lexed_of_mem_items _)
  have first : (parse source).begun.head? = (tokens source).head? := by
    rw [run.head?_begun, tokens, Cursor.remaining_eq, List.head?_map]
  have opening : (parse source).program.opening
      = ((tokens source).head?.map Token.plainText).getD "" := by
    rw [Program.opening_eq, openings, List.head?_map, first]
  refine ⟨openings, ?_, opening, ?_⟩
  · rw [openings]
    exact map_plainText_eq_iff
  · rw [opening]
    cases (tokens source).head? with
    | none => exact iff_of_true rfl fun t absent => absurd absent (Option.not_mem_none t)
    | some t => simp [Token.plainText_eq_iff]

/-- Two zeros in front are lost where a statement opens with the integer, and only there. -/
theorem openings_eq_of_zeros :
    (parse "let x = 00;y 007").problems = []
      ∧ (parse "let x = 00;y 007").program.statements.map Statement.opening = ["let", "y", "7"]
      ∧ (parse "let x = 00;y 007").program.opening = "let" := by
  have clean : (parse "let x = 00;y 007").problems = [] := by decide +kernel
  obtain ⟨openings, -, first, -⟩ := openings_eq clean
  refine ⟨clean, openings.trans ?_, first.trans ?_⟩
  · decide +kernel
  · decide +kernel

/-- A source of one integer with zeros in front has no problems, and its statement and its program
open with another text than that of the token. -/
theorem opening_ne_literal_of_zeros : (parse "007").problems = []
    ∧ (parse "007").program.statements.map Statement.opening = ["7"]
    ∧ (parse "007").begun.map Token.literal = ["007"]
    ∧ (parse "007").program.opening ≠ ((tokens "007").head?.map Token.literal).getD "" := by
  decide +kernel

end Scriptlet
