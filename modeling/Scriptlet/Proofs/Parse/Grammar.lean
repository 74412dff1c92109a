import Scriptlet.Program.Basic
import Scriptlet.Proofs.Numeral
import Scriptlet.Proofs.Token.Terminal

/-!
# The grammar

A source without problems is a list of phrases. A phrase is a statement as it is written down, its
terminator and the digits of its integers included, so it stands for a whole derivation:
`Phrase.yield` is the sequence of terminals it derives, and `Derives` says of a list of phrases
what sequence it derives.

The grammar is unambiguous, and more than that: a phrase can be told from the terminals that begin
with it, whatever may follow (`Phrase.yield_cancel`). The terminator may be left out, but no phrase
begins with one, and a `return` that is not followed by anything has to be the last one.
-/

namespace Scriptlet

/-! ## Phrases -/

/-- A value as it is written down. -/
inductive Value where
  | name (text : String)
  | numeral (digits : String)
deriving DecidableEq

namespace Value

def terminal : Value → Terminal
  | name text => ⟨.identifier, text⟩
  | numeral digits => ⟨.integer, digits⟩

/-- An integer has to fit in 64 bits with its sign, a name has no bound. -/
def InRange : Value → Prop
  | name _ => True
  | numeral digits => Numeral.decimal digits ≤ Numeral.greatest

def expr : Value → Expr
  | name text => .ident text
  | numeral digits => .int (Int64.ofNat (Numeral.decimal digits))

theorem terminal_inj {v u : Value} (h : v.terminal = u.terminal) : v = u := by
  cases v <;> cases u <;> cases h <;> rfl

theorem kind_terminal (v : Value) : v.terminal.kind = .identifier ∨ v.terminal.kind = .integer := by
  cases v with
  | name => exact .inl rfl
  | numeral => exact .inr rfl

theorem terminal_ne (v : Value) {k : Kind} (name : k ≠ .identifier) (numeral : k ≠ .integer) :
    v.terminal ≠ k.terminal := by
  intro same
  have kind : v.terminal.kind = k := congrArg Terminal.kind same
  rcases v.kind_terminal with h | h
  · exact name (kind.symm.trans h)
  · exact numeral (kind.symm.trans h)

end Value

/-- A statement as it is written down. -/
inductive Phrase where
  /-- The form `let name = value`, with or without `;`. -/
  | bind (name : String) (value : Value) (terminated : Bool)
  /-- The form `return value`, with or without `;`. -/
  | give (value : Value) (terminated : Bool)
  /-- The form `return ;`. -/
  | giveNone
  /-- The form `return` at the end of the source. -/
  | giveLast
  /-- A value on its own, with or without `;`. -/
  | bare (value : Value) (terminated : Bool)
deriving DecidableEq

/-- The terminator, if there is one. -/
def terminator : Bool → List Terminal
  | true => [Kind.semicolon.terminal]
  | false => []

namespace Phrase

/-- The terminals that the phrase derives. -/
def yield : Phrase → List Terminal
  | bind name value terminated =>
    Kind.letWord.terminal :: ⟨.identifier, name⟩ :: Kind.assign.terminal :: value.terminal
      :: terminator terminated
  | give value terminated => Kind.returnWord.terminal :: value.terminal :: terminator terminated
  | giveNone => [Kind.returnWord.terminal, Kind.semicolon.terminal]
  | giveLast => [Kind.returnWord.terminal]
  | bare value terminated => value.terminal :: terminator terminated

/-- What the grammar asks for beyond the terminals, if `rest` is behind the phrase. -/
def Admits (rest : List Terminal) : Phrase → Prop
  | bind _ value _ => value.InRange
  | give value _ => value.InRange
  | giveNone => True
  | giveLast => rest = []
  | bare value _ => value.InRange

/-- The statement that the phrase spells. -/
def statement : Phrase → Statement
  | bind name value _ => .bind name value.expr
  | give value _ => .ret (some value.expr)
  | giveNone => .ret none
  | giveLast => .ret none
  | bare value _ => .expr (some value.expr)

end Phrase

/-- The phrases derive these terminals. -/
inductive Derives : List Terminal → List Phrase → Prop where
  | nil : Derives [] []
  | cons {p : Phrase} {rest : List Terminal} {later : List Phrase} (admits : p.Admits rest)
      (more : Derives rest later) : Derives (p.yield ++ rest) (p :: later)

/-! ## Derivations are unique -/

/-- The kinds that a phrase may begin with. -/
def openingKinds : List Kind := [.letWord, .returnWord, .identifier, .integer]

/-- Behind a phrase another one begins, or nothing is left. -/
def Opens (rest : List Terminal) : Prop := ∀ t ∈ rest.head?, t.kind ∈ openingKinds

theorem Opens.kind_ne {rest : List Terminal} (h : Opens rest) {k : Kind} (hk : k ∉ openingKinds) :
    ∀ t ∈ rest.head?, t.kind ≠ k := by
  rintro t ht rfl
  exact hk (h t ht)

theorem Phrase.opens_yield (p : Phrase) (rest : List Terminal) : Opens (p.yield ++ rest) := by
  intro t ht
  have value : ∀ v : Value, v.terminal.kind ∈ openingKinds := by
    intro v
    rcases v.kind_terminal with h | h
    all_goals
      rw [h]
      decide
  cases p with
  | bind | give | giveNone | giveLast =>
    cases ht
    decide
  | bare v =>
    cases ht
    exact value v

theorem Derives.opens {ts : List Terminal} {ps : List Phrase} (h : Derives ts ps) : Opens ts := by
  cases h with
  | nil => nofun
  | @cons p rest => exact p.opens_yield rest

/-- No terminator is left to be taken. -/
def Unmarked (rest : List Terminal) : Prop := ∀ t ∈ rest.head?, t.kind ≠ .semicolon

theorem Opens.unmarked {rest : List Terminal} (h : Opens rest) : Unmarked rest :=
  h.kind_ne (by decide)

/-- Whether a terminator was written can be told from what follows the value. -/
theorem terminator_cancel {b c : Bool} {rest rest' : List Terminal} (unmarked : Unmarked rest)
    (unmarked' : Unmarked rest') (h : terminator b ++ rest = terminator c ++ rest') :
    b = c ∧ rest = rest' := by
  cases b with
  | true =>
    cases c with
    | true => exact ⟨rfl, (List.cons.inj h).2⟩
    | false =>
      have same : rest' = Kind.semicolon.terminal :: rest := h.symm
      rw [same] at unmarked'
      exact absurd rfl (unmarked' _ rfl)
  | false =>
    cases c with
    | true =>
      have same : rest = Kind.semicolon.terminal :: rest' := h
      rw [same] at unmarked
      exact absurd rfl (unmarked _ rfl)
    | false => exact ⟨rfl, h⟩

/-- The same for a value and the terminator behind it. -/
theorem value_cancel {v u : Value} {b c : Bool} {rest rest' : List Terminal} (unmarked : Unmarked rest)
    (unmarked' : Unmarked rest')
    (h : v.terminal :: (terminator b ++ rest) = u.terminal :: (terminator c ++ rest')) :
    v = u ∧ b = c ∧ rest = rest' := by
  obtain ⟨hv, h⟩ := List.cons.inj h
  exact ⟨Value.terminal_inj hv, terminator_cancel unmarked unmarked' h⟩

/-- **A phrase can be told from the terminals that begin with it.** -/
theorem Phrase.yield_cancel {p q : Phrase} {rest rest' : List Terminal} (unmarked : Unmarked rest)
    (unmarked' : Unmarked rest') (admits : p.Admits rest) (admits' : q.Admits rest')
    (h : p.yield ++ rest = q.yield ++ rest') : p = q ∧ rest = rest' := by
  have value : ∀ {v : Value} {k : Kind} {ts us : List Terminal}, k ≠ .identifier → k ≠ .integer →
      v.terminal :: ts ≠ k.terminal :: us :=
    fun name numeral same => Value.terminal_ne _ name numeral (List.cons.inj same).1
  -- the first terminal decides, and for `return` the second one or that there is none
  cases p with
  | bind name v b =>
    cases q with
    | bind name' v' b' =>
      have tail := (List.cons.inj h).2
      obtain ⟨hname, tail⟩ := List.cons.inj tail
      obtain ⟨rfl, rfl, rfl⟩ := value_cancel unmarked unmarked' (List.cons.inj tail).2
      cases hname
      exact ⟨rfl, rfl⟩
    | give | giveNone | giveLast => exact nomatch (List.cons.inj h).1
    | bare => exact absurd h.symm (value nofun nofun)
  | give v b =>
    cases q with
    | give v' b' =>
      obtain ⟨rfl, rfl, rfl⟩ := value_cancel unmarked unmarked' (List.cons.inj h).2
      exact ⟨rfl, rfl⟩
    | giveNone => exact absurd (List.cons.inj h).2 (value nofun nofun)
    | giveLast =>
      have none : rest' = [] := admits'
      rw [none] at h
      exact nomatch (List.cons.inj h).2
    | bind => exact nomatch (List.cons.inj h).1
    | bare => exact absurd h.symm (value nofun nofun)
  | giveNone =>
    cases q with
    | giveNone => exact ⟨rfl, (List.cons.inj (List.cons.inj h).2).2⟩
    | give => exact absurd (List.cons.inj h).2.symm (value nofun nofun)
    | giveLast =>
      have none : rest' = [] := admits'
      rw [none] at h
      exact nomatch (List.cons.inj h).2
    | bind => exact nomatch (List.cons.inj h).1
    | bare => exact absurd h.symm (value nofun nofun)
  | giveLast =>
    have none : rest = [] := admits
    subst none
    cases q with
    | giveLast => exact ⟨rfl, (List.cons.inj h).2⟩
    | give | giveNone => exact nomatch (List.cons.inj h).2
    | bind => exact nomatch (List.cons.inj h).1
    | bare => exact absurd h.symm (value nofun nofun)
  | bare v b =>
    cases q with
    | bare v' b' =>
      obtain ⟨rfl, rfl, rfl⟩ := value_cancel unmarked unmarked' h
      exact ⟨rfl, rfl⟩
    | bind | give | giveNone | giveLast => exact absurd h (value nofun nofun)

/-- **No sequence of terminals has two derivations.** -/
theorem Derives.unique {ts : List Terminal} {ps qs : List Phrase} (h : Derives ts ps)
    (h' : Derives ts qs) : ps = qs := by
  induction h generalizing qs with
  | nil =>
    generalize hts : ([] : List Terminal) = ts at h'
    cases h' with
    | nil => rfl
    | @cons q => cases q <;> cases hts
  | @cons p rest later admits more ih =>
    generalize hts : p.yield ++ rest = ts at h'
    cases h' with
    | nil => cases p <;> cases hts
    | cons admits' more' =>
      obtain ⟨rfl, rfl⟩ := Phrase.yield_cancel more.opens.unmarked more'.opens.unmarked
        admits admits' hts
      rw [ih more']

end Scriptlet
