import Scriptlet.Proofs.Parse.Grammar
import Scriptlet.Proofs.Parse.Reading
import Scriptlet.Proofs.Token.Tiling

/-!
# Sources without problems

A source has no problems if and only if its tokens can be derived from the grammar, and then the
program is what the one derivation spells (`parse_iff_derives`).

Both directions go along the run over the items. A complete statement is a phrase
(`Reads.exists_phrase`), and a phrase is read as its statement (`Phrase.reads`) and as nothing else
(`Reads.unique`). A broken statement always has a problem, so a run without problems is made of
complete ones.
-/

namespace Scriptlet

open Cursor (Item)

/-- The terminals of the items. -/
def terminals (items : List Item) : List Terminal := items.map fun i => i.token.terminal

/-! ## Tokens as terminals -/

namespace Cursor.Item.Lexed

variable {i : Item}

/-- A token of fixed text is the symbol of its kind. -/
theorem terminal_eq (h : i.Lexed) {k : Kind} (hk : i.token.kind = k)
    (fixed : k ∉ Lexeme.variableKinds) : i.token.terminal = k.terminal := by
  obtain ⟨source, l, recognized, -, kind, literal, -⟩ := h
  have same : l.kind = k := kind.symm.trans hk
  have symbol := recognized.literal_eq_symbol (by rw [same]; exact fixed)
  rw [Token.terminal, Kind.terminal, hk, literal, symbol, same]

/-- An integer is a run of digits. -/
theorem digits_of_integer (h : i.Lexed) (hk : i.token.kind = .integer) :
    i.token.literal ≠ "" ∧ ∀ c ∈ i.token.literal.toList, c.isDigit = true := by
  obtain ⟨source, l, recognized, -, kind, literal, -⟩ := h
  obtain ⟨digits, nonempty, inside, same⟩ := recognized.of_integer (kind.symm.trans hk)
  rw [literal, same]
  constructor
  · exact Text.ofByteValues_ne_empty nonempty
  · intro c hc
    obtain ⟨b, hb, rfl⟩ := Text.exists_byte_of_mem_ofByteValues hc
    exact Lexeme.isDigit_ofNat (inside b hb)

/-- An integer is read as its value if that is in range. -/
theorem operand_integer (h : i.Lexed) (hk : i.token.kind = .integer) : i.token.operand
      = if Numeral.decimal i.token.literal ≤ Numeral.greatest then
          .ok (.int (Int64.ofNat (Numeral.decimal i.token.literal)))
        else .error (.badInteger i.token.literal i.token.span .tooLarge) := by
  obtain ⟨nonempty, digits⟩ := h.digits_of_integer hk
  have read := Numeral.read_digits nonempty digits
  by_cases low : Numeral.decimal i.token.literal ≤ Numeral.greatest
  · rw [if_pos low] at read ⊢
    simp only [Token.operand, hk, read]
  · rw [if_neg low] at read ⊢
    simp only [Token.operand, hk, read]

/-- What a token stands for as a value is what the grammar says. -/
theorem exists_value (h : i.Lexed) {e : Expr} (operand : i.token.operand = .ok e) :
    ∃ v : Value, i.token.terminal = v.terminal ∧ v.InRange ∧ v.expr = e := by
  by_cases name : i.token.kind = .identifier
  · simp only [Token.operand, name, Except.ok.injEq] at operand
    exact ⟨.name i.token.literal, by rw [Token.terminal, name]; rfl, trivial, operand⟩
  by_cases numeral : i.token.kind = .integer
  · rw [h.operand_integer numeral] at operand
    split at operand
    · next low =>
      cases operand
      exact ⟨.numeral i.token.literal, by rw [Token.terminal, numeral]; rfl, low, rfl⟩
    · cases operand
  · unfold Token.operand at operand
    split at operand
    · exact absurd ‹_› name
    · exact absurd ‹_› numeral
    · cases operand

theorem operand_of_value (h : i.Lexed) {v : Value} (same : i.token.terminal = v.terminal)
    (inRange : v.InRange) : i.token.operand = .ok v.expr := by
  have kind : i.token.kind = v.terminal.kind := congrArg Terminal.kind same
  have text : i.token.literal = v.terminal.text := congrArg Terminal.text same
  cases v with
  | name name =>
    have kind : i.token.kind = .identifier := kind
    have text : i.token.literal = name := text
    simp only [Token.operand, kind, text]
    rfl
  | numeral digits =>
    have text : i.token.literal = digits := text
    have low : Numeral.decimal digits ≤ Numeral.greatest := inRange
    rw [h.operand_integer kind, text, if_pos low]
    rfl

end Cursor.Item.Lexed

/-! ## A complete statement is a phrase -/

variable {stop : Nat} {items behind : List Item} {s : Option Statement}

/-- A terminator is taken if there is one, and another token is left alone. -/
theorem exists_terminator {v : Item} {rest : List Item} (lexed : ∀ i ∈ rest, i.Lexed) :
    ∃ b, terminals rest = terminator b ++ terminals (terminated (v :: rest)).tail := by
  match rest with
  | [] => exact ⟨false, rfl⟩
  | i :: rest =>
    rw [terminated]
    split
    · next hk =>
      have mark := (lexed i List.mem_cons_self).terminal_eq hk (by decide)
      refine ⟨true, ?_⟩
      rw [terminals, List.map_cons, mark]
      rfl
    · exact ⟨false, rfl⟩

/-- A value and what is left behind its terminator. -/
theorem exists_value_terminated {v : Item} {rest : List Item} {e : Expr}
    (lexed : ∀ i ∈ v :: rest, i.Lexed) (operand : v.token.operand = .ok e) :
    ∃ (value : Value) (b : Bool), value.InRange ∧ value.expr = e ∧ terminals (v :: rest)
      = value.terminal :: (terminator b ++ terminals (terminated (v :: rest)).tail) := by
  obtain ⟨value, same, inRange, spelled⟩ := (lexed v List.mem_cons_self).exists_value operand
  obtain ⟨b, behind⟩ := exists_terminator (v := v) fun i hi => lexed i (List.mem_cons_of_mem v hi)
  refine ⟨value, b, inRange, spelled, ?_⟩
  rw [← behind, ← same]
  rfl

/-- **A complete statement is a phrase**, and what is left behind it is behind the phrase. -/
theorem Reads.exists_phrase {found : List Problem} (h : Reads stop items s found behind)
    (clean : found = []) (lexed : ∀ i ∈ items, i.Lexed) :
    ∃ p : Phrase, s = some p.statement ∧ p.Admits (terminals behind.tail)
      ∧ terminals items = p.yield ++ terminals behind.tail := by
  have fixed : ∀ {i : Item} {k : Kind}, i ∈ items → i.token.kind = k → k ∉ Lexeme.variableKinds →
      i.token.terminal = k.terminal := fun hi hk => (lexed _ hi).terminal_eq hk
  cases h with
  | @bind i name sign v rest e hi hname hsign operand =>
    have inner : ∀ x ∈ v :: rest, x.Lexed := fun x hx => lexed x (.tail _ (.tail _ (.tail _ hx)))
    obtain ⟨value, b, inRange, rfl, tail⟩ := exists_value_terminated inner operand
    refine ⟨.bind name.token.literal value b, rfl, inRange, ?_⟩
    have first := fixed List.mem_cons_self hi (by decide)
    have third := fixed (by simp) hsign (by decide)
    have second : name.token.terminal = ⟨.identifier, name.token.literal⟩ := by
      rw [Token.terminal, hname]
    rw [Phrase.yield, List.cons_append, List.cons_append, List.cons_append, List.cons_append,
      ← tail, ← first, ← second, ← third]
    rfl
  | @returnEnd i hi =>
    have first := fixed List.mem_cons_self hi (by decide)
    refine ⟨.giveLast, rfl, rfl, ?_⟩
    rw [Phrase.yield, ← first]
    rfl
  | @returnMark i m rest hi hm =>
    have first := fixed List.mem_cons_self hi (by decide)
    have second := fixed (by simp) hm (by decide)
    refine ⟨.giveNone, rfl, trivial, ?_⟩
    rw [Phrase.yield, ← first, ← second]
    rfl
  | @returnValue i v rest e hi operand =>
    have inner : ∀ x ∈ v :: rest, x.Lexed := fun x hx => lexed x (.tail _ hx)
    obtain ⟨value, b, inRange, rfl, tail⟩ := exists_value_terminated inner operand
    have first := fixed List.mem_cons_self hi (by decide)
    refine ⟨.give value b, rfl, inRange, ?_⟩
    rw [Phrase.yield, List.cons_append, List.cons_append, ← tail, ← first]
    rfl
  | @bare i rest e operand =>
    obtain ⟨value, b, inRange, rfl, tail⟩ := exists_value_terminated lexed operand
    refine ⟨.bare value b, rfl, inRange, ?_⟩
    rw [Phrase.yield, List.cons_append, ← tail]
  | bindNoName | bindNoSign | bareNoValue => cases clean
  | bindNoValue | returnNoValue => exact absurd clean (by simp)

/-! ## A phrase is read as its statement -/

theorem exists_of_terminals_cons {t : Terminal} {ts : List Terminal}
    (h : terminals items = t :: ts) :
    ∃ i rest, items = i :: rest ∧ i.token.terminal = t ∧ terminals rest = ts :=
  List.map_eq_cons_iff.mp h

/-- The terminator of a phrase is taken, and no other token is. -/
theorem terminals_terminated {v : Item} {rest : List Item} {b : Bool} {ts : List Terminal}
    (opens : Opens ts) (h : terminals rest = terminator b ++ ts) :
    terminals (terminated (v :: rest)).tail = ts := by
  cases b with
  | true =>
    obtain ⟨m, rest, rfl, mark, h⟩ := exists_of_terminals_cons h
    have hk : m.token.kind = .semicolon := congrArg Terminal.kind mark
    rw [terminated, if_pos hk]
    exact h
  | false =>
    have h : terminals rest = ts := h
    subst h
    cases rest with
    | nil => rfl
    | cons m rest =>
      have hk : m.token.kind ≠ .semicolon := opens.unmarked m.token.terminal rfl
      rw [terminated, if_neg hk]
      rfl

/-- Where a phrase begins, it is read as its statement. -/
theorem Phrase.reads (stop : Nat) {p : Phrase} {rest : List Terminal} (admits : p.Admits rest)
    (opens : Opens rest) (lexed : ∀ i ∈ items, i.Lexed) (h : terminals items = p.yield ++ rest) :
    ∃ behind, Reads stop items (some p.statement) [] behind ∧ terminals behind.tail = rest := by
  cases p with
  | bind name value b =>
    obtain ⟨i, items, rfl, first, h⟩ := exists_of_terminals_cons h
    obtain ⟨n, items, rfl, second, h⟩ := exists_of_terminals_cons h
    obtain ⟨sign, items, rfl, third, h⟩ := exists_of_terminals_cons h
    obtain ⟨v, items, rfl, fourth, h⟩ := exists_of_terminals_cons h
    have operand := (lexed v (by simp)).operand_of_value fourth admits
    have text : n.token.literal = name := congrArg Terminal.text second
    refine ⟨terminated (v :: items), ?_, terminals_terminated opens h⟩
    rw [Phrase.statement, ← text]
    exact .bind (congrArg Terminal.kind first) (congrArg Terminal.kind second)
      (congrArg Terminal.kind third) operand
  | give value b =>
    obtain ⟨i, items, rfl, first, h⟩ := exists_of_terminals_cons h
    obtain ⟨v, items, rfl, second, h⟩ := exists_of_terminals_cons h
    have operand := (lexed v (by simp)).operand_of_value second admits
    exact ⟨_, .returnValue (congrArg Terminal.kind first) operand, terminals_terminated opens h⟩
  | giveNone =>
    obtain ⟨i, items, rfl, first, h⟩ := exists_of_terminals_cons h
    obtain ⟨m, items, rfl, second, h⟩ := exists_of_terminals_cons h
    exact ⟨_, .returnMark (congrArg Terminal.kind first) (congrArg Terminal.kind second), h⟩
  | giveLast =>
    have none : rest = [] := admits
    subst none
    obtain ⟨i, items, rfl, first, h⟩ := exists_of_terminals_cons h
    obtain rfl := List.map_eq_nil_iff.mp h
    exact ⟨_, .returnEnd (congrArg Terminal.kind first), rfl⟩
  | bare value b =>
    obtain ⟨v, items, rfl, first, h⟩ := exists_of_terminals_cons h
    have operand := (lexed v (by simp)).operand_of_value first admits
    exact ⟨_, .bare operand, terminals_terminated opens h⟩

/-! ## Whole sources -/

variable {statements : List Statement} {problems : List Problem} {begun : List Token}

theorem Reads.lexed_tail {found : List Problem} (h : Reads stop items s found behind)
    (lexed : ∀ i ∈ items, i.Lexed) : ∀ i ∈ behind.tail, i.Lexed :=
  fun i hi => lexed i (h.suffix.subset (List.mem_of_mem_tail hi))

/-- The first token of a phrase brings no problem with it. -/
theorem leadProblems_of_opens (opens : Opens (terminals items)) (lexed : ∀ i ∈ items, i.Lexed) :
    leadProblems items = [] := by
  refine Window.leadProblems_of_ne_string lexed fun i hi => ?_
  obtain ⟨rest, rfl⟩ := List.head?_eq_some_iff.mp hi
  exact opens.kind_ne (by decide) i.token.terminal rfl

/-- A run without problems follows a derivation. -/
theorem Run.exists_derives (h : Run stop items statements problems begun) (clean : problems = [])
    (lexed : ∀ i ∈ items, i.Lexed) :
    ∃ ps, Derives (terminals items) ps ∧ statements = ps.map Phrase.statement := by
  induction h with
  | done => exact ⟨[], .nil, rfl⟩
  | step reads more ih =>
    obtain ⟨none, later⟩ := List.append_eq_nil_iff.mp clean
    obtain ⟨p, rfl, admits, same⟩ := reads.exists_phrase none lexed
    obtain ⟨ps, derives, rfl⟩ := ih (List.append_eq_nil_iff.mp later).2 (reads.lexed_tail lexed)
    refine ⟨p :: ps, ?_, rfl⟩
    rw [same]
    exact .cons admits derives

/-- What can be derived is read without problems, as what the derivation spells. -/
theorem Run.of_derives (h : Run stop items statements problems begun)
    (lexed : ∀ i ∈ items, i.Lexed) {ps : List Phrase} (derives : Derives (terminals items) ps) :
    problems = [] ∧ statements = ps.map Phrase.statement := by
  induction h generalizing ps with
  | done =>
    -- no phrase is empty
    have empty := derives.unique .nil
    rw [empty]
    exact ⟨rfl, rfl⟩
  | @step i rest behind s statements found problems begun reads more ih =>
    generalize hts : terminals (i :: rest) = ts at derives
    cases derives with
    | nil => cases hts
    | @cons p ts later admits derives =>
      -- the first phrase is one way to read a statement here, and there is no other
      obtain ⟨last, reads', left⟩ := Phrase.reads stop admits derives.opens lexed hts
      obtain ⟨rfl, rfl, rfl⟩ := reads'.unique reads
      have lexed' := reads.lexed_tail lexed
      rw [← left] at derives
      obtain ⟨rfl, rfl⟩ := ih lexed' derives
      have quiet := leadProblems_of_opens derives.opens lexed'
      rw [quiet]
      exact ⟨rfl, rfl⟩

theorem terminals_items (source : String) :
    (tokens source).map Token.terminal = terminals (Cursor.ofText source).items := by
  rw [tokens_eq, List.map_map]
  rfl

/-- A source without problems can be derived, and the derivation spells the program. -/
theorem exists_derives {source : String} (clean : (parse source).problems = []) :
    ∃ ps, Derives ((tokens source).map Token.terminal) ps
      ∧ (parse source).program.statements = ps.map Phrase.statement := by
  obtain ⟨problems, run, same⟩ := parse_run source
  rw [same, List.append_eq_nil_iff] at clean
  rw [terminals_items]
  exact run.exists_derives clean.2 (Cursor.lexed_of_mem_items _)

/-- What can be derived is read without problems. -/
theorem parse_of_derives {source : String} {ps : List Phrase}
    (derives : Derives ((tokens source).map Token.terminal) ps) :
    (parse source).problems = [] ∧ (parse source).program.statements = ps.map Phrase.statement := by
  obtain ⟨problems, run, same⟩ := parse_run source
  rw [terminals_items] at derives
  have lexed := Cursor.lexed_of_mem_items (Cursor.ofText source)
  obtain ⟨none, spelled⟩ := run.of_derives lexed derives
  rw [same, none, leadProblems_of_opens derives.opens lexed]
  exact ⟨rfl, spelled⟩

/--
**A source has no problems if and only if its tokens can be derived from the grammar.** There is
only one derivation then, and the program is what it spells, so no expression is missing in it.
-/
theorem parse_iff_derives (source : String) :
    ((parse source).problems = [] ↔ ∃ ps, Derives ((tokens source).map Token.terminal) ps)
      ∧ ∀ ps, Derives ((tokens source).map Token.terminal) ps →
        (parse source).program.statements = ps.map Phrase.statement
          ∧ Statement.expr none ∉ (parse source).program.statements
          ∧ ∀ qs, Derives ((tokens source).map Token.terminal) qs → qs = ps := by
  refine ⟨⟨?_, ?_⟩, ?_⟩
  · intro clean
    obtain ⟨ps, derives, -⟩ := exists_derives clean
    exact ⟨ps, derives⟩
  · rintro ⟨ps, derives⟩
    exact (parse_of_derives derives).1
  · intro ps derives
    obtain ⟨-, spelled⟩ := parse_of_derives derives
    refine ⟨spelled, ?_, fun qs other => other.unique derives⟩
    rw [spelled, List.mem_map]
    rintro ⟨p, -, absent⟩
    cases p <;> cases absent

end Scriptlet
