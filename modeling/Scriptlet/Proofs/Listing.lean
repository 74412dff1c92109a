import Scriptlet.Proofs.Prompt
import Scriptlet.Proofs.Text.Quoted
import Scriptlet.Proofs.Token.Terminal

/-!
# What a listing tells

The listing of a source shows one token on each line, and the line tells kind and text of the token
(`Token.line_eq_iff`): no name of a kind has a parenthesis in it, so the name ends at the first one,
and no two texts are quoted alike. No line has a newline in it, so the lines are found again in the
output, and with them everything about the tokens but their places (`listing_determines_tokens`).
-/

namespace Scriptlet

open Text

/-! ## Lines -/

theorem Kind.name_injective {k l : Kind} (same : k.name = l.name) : k = l := by
  have found := ofName?_name k
  rw [same, ofName?_name] at found
  exact (Option.some.inj found).symm

/-- The characters of a shown token: the name up to the parenthesis, and what is in parentheses. -/
theorem Token.toList_render (t : Token) :
    t.render.toList = t.kind.name.toList ++ '(' :: ((quote t.literal).toList ++ [')']) := by
  simp [render]

/-- **The line of a token tells its kind and its text**, and nothing else. -/
theorem Token.line_eq_iff {t u : Token} : t.line = u.line ↔ t.terminal = u.terminal := by
  have free : ∀ k : Kind, '(' ∉ k.name.toList := by
    intro k
    cases k <;> decide
  constructor
  · intro same
    have shown := congrArg String.toList (bytes_injective same)
    rw [toList_render, toList_render] at shown
    obtain ⟨names, quoted⟩ := append_cons_unique (free _) (free _) shown
    have kind := Kind.name_injective (String.toList_inj.mp names)
    have literal := quote_injective (String.toList_inj.mp (List.append_cancel_right quoted))
    rw [terminal, terminal, kind, literal]
  · intro same
    rw [terminal, terminal, Terminal.mk.injEq] at same
    rw [line, line, render, render, same.1, same.2]

/-- A line of a token ends in a parenthesis, so no carriage return is dropped from it. -/
theorem Token.dropReturn_line (t : Token) : dropReturn t.line = t.line := by
  have last : t.line.getLast? = (bytes ")").getLast? := by
    rw [line, render, bytes_append, List.getLast?_append]
    rfl
  rw [dropReturn, if_neg]
  rw [last]
  decide

/-! ## Listings -/

/-- The output is the lines of the tokens, with a newline behind each. -/
theorem output_listTokens (source : List UInt8) : (listTokens source .empty).2.output
    = unsplit newline ((Cursor.ofBytes source).remaining.map Token.line) := by
  have said := (Transcript.says_listTokens Transcript.open_empty source).1.output
  rwa [Transcript.output_empty, List.nil_append] at said

/-- The lines of the tokens are found again in the output. -/
theorem split_output_listTokens (source : List UInt8) :
    split newline (listTokens source .empty).2.output
      = (Cursor.ofBytes source).remaining.map Token.line ++ [[]] := by
  rw [output_listTokens]
  refine split_unsplit ?_
  rw [List.forall_mem_map]
  exact fun t _ => t.newline_not_mem_line

theorem lines_output_listTokens (source : List UInt8) :
    lines (listTokens source .empty).2.output
      = (Cursor.ofBytes source).remaining.map Token.line := by
  have whole : dropReturn ∘ Token.line = Token.line := funext Token.dropReturn_line
  rw [lines, split_output_listTokens]
  simp [whole]

/-- Equal lines are those of tokens that differ in their places at most. -/
theorem map_line_eq_iff : ∀ tokens tokens' : List Token,
    tokens.map Token.line = tokens'.map Token.line
      ↔ tokens.map Token.terminal = tokens'.map Token.terminal
  | [], [] | [], _ :: _ | _ :: _, [] => by simp
  | t :: tokens, u :: tokens' => by
    simp only [List.map_cons, List.cons.injEq, Token.line_eq_iff, map_line_eq_iff tokens tokens']

/--
**A listing determines the tokens.** Two texts have the same listing if and only if their tokens
before the end agree one by one in kind and text. The lines of a listing are those of the tokens, one
for each, every line ended by a newline.
-/
theorem listing_determines_tokens :
    (∀ s t : String,
      (listTokens (bytes s) .empty).2.output = (listTokens (bytes t) .empty).2.output
        ↔ (tokens s).map Token.terminal = (tokens t).map Token.terminal)
    ∧ ∀ s : String,
      lines (listTokens (bytes s) .empty).2.output = (tokens s).map Token.line
        ∧ (listTokens (bytes s) .empty).2.output.count newline = (tokens s).length := by
  refine ⟨fun s t => ?_, fun s => ⟨lines_output_listTokens _, ?_⟩⟩
  · rw [← map_line_eq_iff]
    constructor
    · intro same
      have lines := congrArg lines same
      rwa [lines_output_listTokens, lines_output_listTokens] at lines
    · intro same
      rw [output_listTokens, output_listTokens]
      exact congrArg (unsplit newline) same
  · rw [output_listTokens, count_unsplit, List.length_map]
    · rfl
    · rw [List.forall_mem_map]
      exact fun t _ => t.newline_not_mem_line

/-- A string that looks like an escape is not listed like the character that is escaped so. -/
example : (listTokens (bytes "\"\\u\x7b7\x7d\"") .empty).2.output
    ≠ (listTokens (bytes "\"\x07\"") .empty).2.output := by
  decide +kernel

end Scriptlet
