import Scriptlet.Proofs.Parse.Placement
import Scriptlet.Proofs.Token.Insertion
import Scriptlet.Proofs.Token.Terminal

/-!
# Formatting

Blanks and comments between the tokens of a source say nothing. Wherever they are put in, the tokens
stay as they are but for their places (`Amid.items`), and what is read does not depend on places
(`Run.respan`). So the program stays the same, and so do the problems but for their places
(`parse_inserted`).
-/

namespace Scriptlet

open Text

/-- Texts that can be put into a source, one in front of each of its bytes and one behind the last.
Where nothing is put in, the text is empty. -/
structure Insertable (source : String) (texts : Nat → String) : Prop where
  /-- Texts stand where tokens begin or end. -/
  edge : ∀ i, texts i ≠ "" → IsEdge (tokens source) (bytes source).length i
  /-- Each begins with a blank. -/
  blank : ∀ i, ∀ b ∈ (bytes (texts i)).head?, Gap.isBlank b = true
  /-- Each consists of blanks and comments, and ends behind its last comment. -/
  filler : ∀ i, IsFiller (bytes (texts i))
  /-- A string without an end would take a text behind it in. -/
  unclosed : ∀ t ∈ tokens source, t.Unclosed (bytes source) → texts t.span.stop = ""

variable {source source' : String} {texts : Nat → String}

theorem Insertable.amid (h : Insertable source texts)
    (stored : bytes source' = inserted (fun i => bytes (texts i)) 0 (bytes source)) :
    Amid (fun i => bytes (texts i)) source (.ofText source) (.ofText source') where
  stored := ⟨[], rfl, rfl⟩
  goesOn := rfl
  goesOn' := rfl
  rest := stored
  edge := by
    intro i _ put
    have stop : (Cursor.ofText source).stop = (bytes source).length := Nat.zero_add _
    rw [stop]
    refine h.edge i fun empty => put ?_
    rw [empty]
    rfl
  unclosed := by
    intro t ht unclosed
    rw [h.unclosed t ht unclosed]
    rfl

/-- Sources with the same items, but for the places, are read alike. -/
theorem parse_of_unplaced (same : (Cursor.ofText source').items.map Cursor.Item.unplaced
      = (Cursor.ofText source).items.map Cursor.Item.unplaced) :
    (parse source').program.statements = (parse source).program.statements
      ∧ (parse source').problems.map Problem.unplaced
        = (parse source).problems.map Problem.unplaced := by
  -- without places both are runs over the same items
  have reading : ∀ text : String, ∃ problems begun,
      Run 0 ((Cursor.ofText text).items.map Cursor.Item.unplaced) (parse text).program.statements
          problems begun
        ∧ (parse text).problems.map Problem.unplaced
          = leadProblems ((Cursor.ofText text).items.map Cursor.Item.unplaced) ++ problems := by
    intro text
    obtain ⟨problems, run, all⟩ := parse_run text
    refine ⟨problems.map Problem.unplaced, _, run.respan rfl, ?_⟩
    rw [all, List.map_append]
    exact congrArg (· ++ _) (leadProblems_respan _).symm
  obtain ⟨problems, begun, run, all⟩ := reading source
  obtain ⟨problems', begun', run', all'⟩ := reading source'
  rw [same] at run' all'
  obtain ⟨statements, rfl, -⟩ := run.unique run'
  exact ⟨statements, all'.trans all.symm⟩

/-- The terminals of the tokens have no part in their places. -/
theorem map_terminal_tokens (text : String) : (tokens text).map Token.terminal
    = ((Cursor.ofText text).items.map Cursor.Item.unplaced).map fun i => i.token.terminal := by
  rw [tokens_eq, List.map_map, List.map_map]
  rfl

/--
**Formatting never changes what a source means.** Texts of blanks and comments can be put in
wherever a token begins or ends, but for the end of a string without a closing quote: the tokens are
of the same kinds and the same texts, the program is the same, and the problems differ in nothing
but their places.

Texts put inside a character leave no text, so where `source'` is one they all stand between
characters.
-/
theorem parse_inserted (h : Insertable source texts)
    (stored : bytes source' = inserted (fun i => bytes (texts i)) 0 (bytes source)) :
    (tokens source').map Token.terminal = (tokens source).map Token.terminal
      ∧ (parse source').program = (parse source).program
      ∧ (parse source').problems.map Problem.unplaced
        = (parse source).problems.map Problem.unplaced := by
  have same := (h.amid stored).items h.blank h.filler
  obtain ⟨statements, problems⟩ := parse_of_unplaced same
  refine ⟨?_, congrArg Program.mk statements, problems⟩
  rw [map_terminal_tokens, map_terminal_tokens, same]

/-- The texts of `parse_inserted_amid_problems`. -/
def commentAndTab (i : Nat) : String := ["", " //=\n", "\t"].getD i ""

/-- A sign that begins no statement and a string without an end, with a comment and a tab around the
sign. -/
theorem parse_inserted_amid_problems :
    Insertable "a=\"b" commentAndTab
      ∧ bytes "a //=\n=\t\"b" = inserted (fun i => bytes (commentAndTab i)) 0 (bytes "a=\"b")
      ∧ (tokens "a //=\n=\t\"b").map Token.terminal = (tokens "a=\"b").map Token.terminal
      ∧ (parse "a //=\n=\t\"b").program = (parse "a=\"b").program
      ∧ (parse "a //=\n=\t\"b").problems.map Problem.unplaced
        = (parse "a=\"b").problems.map Problem.unplaced := by
  have listed : tokens "a=\"b"
      = [⟨.identifier, "a", ⟨0, 1⟩⟩, ⟨.assign, "=", ⟨1, 1⟩⟩, ⟨.string, "b", ⟨2, 2⟩⟩] := by
    decide +kernel
  have insertable : Insertable "a=\"b" commentAndTab := by
    refine ⟨?_, ?_, ?_, ?_⟩
    · intro i put
      rw [listed]
      match i with
      | 0 => exact absurd rfl put
      | 1 => exact .inl ⟨_, List.mem_cons_self, .inr rfl⟩
      | 2 => exact .inl ⟨_, List.mem_cons_of_mem _ List.mem_cons_self, .inr rfl⟩
      | n + 3 => exact absurd rfl put
    · intro i
      match i with
      | 0 | n + 3 => exact nofun
      | 1 | 2 => rintro _ ⟨⟩; rfl
    · intro i
      match i with
      | 0 | n + 3 => exact .nil
      | 1 =>
        have stored : bytes (commentAndTab 1)
            = 32 :: Gap.slash :: Gap.slash :: ([61] ++ 10 :: []) := by
          decide +kernel
        rw [stored]
        exact .blank rfl (.comment (List.forall_mem_singleton.mpr rfl) rfl .nil)
      | 2 =>
        have stored : bytes (commentAndTab 2) = [9] := by decide +kernel
        rw [stored]
        exact .blank rfl .nil
    · intro t ht unclosed
      rw [listed] at ht
      rcases List.mem_cons.mp ht with rfl | ht
      · exact nomatch unclosed.kind
      rcases List.mem_cons.mp ht with rfl | ht
      · exact nomatch unclosed.kind
      · rw [List.mem_singleton.mp ht]
        rfl
  have stored : bytes "a //=\n=\t\"b"
      = inserted (fun i => bytes (commentAndTab i)) 0 (bytes "a=\"b") := by
    decide +kernel
  exact ⟨insertable, stored, parse_inserted insertable stored⟩

end Scriptlet
