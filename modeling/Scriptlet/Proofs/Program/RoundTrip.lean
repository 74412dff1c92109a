import Mathlib.Data.List.Chain
import Scriptlet.Proofs.Parse.Derivation
import Scriptlet.Proofs.Program.Printed

/-!
# Printing and reading

Reading gives well-formed programs, and a well-formed program that was printed is read back, unless
two neighbours run into each other (`parse_render_iff`). Nothing stands between two statements, and
an expression on its own has no `;`. So a name goes on into the next word, and digits go on into the
next digits.

For the converse it does not matter what the two become. In front of them everything is read back,
and there the longest word or run of digits is another one than what was printed.
-/

namespace Scriptlet

open Lexeme Text

/-- Whether the statement is an integer on its own. -/
def Statement.isInteger : Statement → Bool
  | .expr (some (.int _)) => true
  | _ => false

/-- Whether the two share a token when they are printed one directly after the other. -/
def Statement.fuses : Statement → Statement → Bool
  | .expr (some (.ident _)), t => !t.isInteger
  | .expr (some (.int _)), t => t.isInteger
  | _, _ => false

/-! ## Reading gives well-formed programs -/

theorem Value.wellFormed_expr {v : Value} (inRange : v.InRange)
    (name : ∀ text, v = .name text → IsName text) : v.expr.WellFormed := by
  cases v with
  | name text => exact name text rfl
  | numeral digits =>
    have value := Numeral.toInt_ofNat (n := Numeral.decimal digits) inRange
    rw [expr, Expr.WellFormed, Int64.le_iff_toInt_le, value]
    exact Int.natCast_nonneg _

/-- The statements that a derivation spells are well-formed if its identifiers are names. -/
theorem Derives.wellFormed {ts : List Terminal} {ps : List Phrase} (h : Derives ts ps)
    (names : ∀ t ∈ ts, t.kind = .identifier → IsName t.text) :
    ∀ p ∈ ps, p.statement.WellFormed := by
  induction h with
  | nil => simp
  | @cons p rest later admits more ih =>
    intro q hq
    rcases List.mem_cons.mp hq with rfl | hq
    · have value : ∀ v : Value, v.InRange → v.terminal ∈ q.yield ++ rest → v.expr.WellFormed := by
        intro v inRange hv
        refine v.wellFormed_expr inRange ?_
        rintro text rfl
        exact names _ hv rfl
      cases q with
      | bind name v b => exact ⟨names ⟨.identifier, name⟩ (by simp [Phrase.yield]) rfl,
          value v admits (by simp [Phrase.yield])⟩
      | give v b => exact value v admits (by simp [Phrase.yield])
      | bare v b => exact value v admits (by simp [Phrase.yield])
      | giveNone | giveLast => trivial
    · exact ih (fun t ht => names t (List.mem_append_right _ ht)) q hq

theorem wellFormed_parse {source : String} (clean : (parse source).problems = []) :
    (parse source).program.WellFormed := by
  obtain ⟨ps, derives, spelled⟩ := exists_derives clean
  have names : ∀ t ∈ (tokens source).map Token.terminal, t.kind = .identifier → IsName t.text := by
    intro t ht hk
    rw [terminals_items] at ht
    obtain ⟨i, hi, rfl⟩ := List.mem_map.mp ht
    exact .of_lexed (Cursor.lexed_of_mem_items _ i hi) hk
  intro s hs
  rw [spelled] at hs
  obtain ⟨p, hp, rfl⟩ := List.mem_map.mp hs
  exact derives.wellFormed names p hp

/-! ## Statements printed one after the other -/

/-- The statements as they are printed. -/
def printed (ss : List Statement) : List UInt8 := ss.flatMap fun s => bytes s.render

theorem printed_cons (s : Statement) (ss : List Statement) :
    printed (s :: ss) = bytes s.render ++ printed ss := List.flatMap_cons

theorem bytes_render (p : Program) : bytes p.render = printed p.statements := by
  rw [Program.render]
  induction p.statements with
  | nil => rfl
  | cons s ss ih => rw [List.map_cons, String.join_cons, bytes_append, ih, printed_cons]

/-- Only an integer begins with a digit, and it has no other bytes. All other statements begin with
a word. -/
theorem Statement.WellFormed.bytes_render {s : Statement} (wf : s.WellFormed) :
    (s.isInteger = true ∧ bytes s.render ≠ [] ∧ ∀ b ∈ bytes s.render, isDigit b = true)
      ∨ s.isInteger = false ∧ ∃ b rest, bytes s.render = b :: rest ∧ isWordByte b = true := by
  cases s with
  | bind name value =>
    refine .inr ⟨rfl, ?_⟩
    simp only [Statement.render, bytes_append, List.append_assoc]
    exact ⟨_, _, rfl, rfl⟩
  | ret value =>
    refine .inr ⟨rfl, ?_⟩
    cases value with
    | some value =>
      simp only [Statement.render, bytes_append, List.append_assoc]
      exact ⟨_, _, rfl, rfl⟩
    | none =>
      simp only [Statement.render, bytes_append]
      exact ⟨_, _, rfl, rfl⟩
  | expr value =>
    cases value with
    | some e =>
      cases e with
      | int v =>
        exact .inl ⟨rfl, bytes_ne_nil (Numeral.write_ne_empty wf), isDigit_of_mem_bytes_write wf⟩
      | ident name =>
        have isName : IsName name := wf
        have nonempty := bytes_ne_nil isName.nonempty
        have inside := isName.isWordByte
        refine .inr ⟨rfl, ?_⟩
        show ∃ b rest, bytes name = b :: rest ∧ isWordByte b = true
        cases hname : bytes name with
        | nil => exact absurd hname nonempty
        | cons b rest => exact ⟨b, rest, rfl, inside b (by rw [hname]; exact List.mem_cons_self)⟩
    | none => exact wf.elim

/-- Behind the digits of the first integers a word follows, or nothing. -/
theorem exists_digits : ∀ ss : List Statement, (∀ s ∈ ss, s.WellFormed) →
    ∃ digits rest, printed ss = digits ++ rest ∧ (∀ b ∈ digits, isDigit b = true)
      ∧ (∀ b ∈ rest.head?, isWordByte b = true)
      ∧ ∀ s ∈ ss.head?, s.isInteger = true → digits ≠ []
  | [], _ => ⟨[], [], rfl, by simp, by simp, by simp⟩
  | s :: ss, wf => by
    obtain ⟨digits, rest, same, inside, word, -⟩ :=
      exists_digits ss fun t ht => wf t (List.mem_cons_of_mem s ht)
    rcases (wf s List.mem_cons_self).bytes_render with
      ⟨-, nonempty, digits'⟩ | ⟨noInteger, b, tail, shape, hb⟩
    · refine ⟨bytes s.render ++ digits, rest, ?_, ?_, word, ?_⟩
      · rw [printed_cons, same, List.append_assoc]
      · intro b hb
        rcases List.mem_append.mp hb with hb | hb
        · exact digits' b hb
        · exact inside b hb
      · intro _ _ _ none
        exact nonempty (List.append_eq_nil_iff.mp none).1
    · refine ⟨[], printed (s :: ss), rfl, by simp, ?_, ?_⟩
      · rw [printed_cons, shape]
        rintro _ ⟨⟩
        exact hb
      · rintro _ ⟨⟩ isInteger
        rw [noInteger] at isInteger
        cases isInteger

/-- A source that begins with a word byte begins with a word. -/
theorem head_terminalsOf_of_word {source : List UInt8}
    (h : ∀ b ∈ source.head?, isWordByte b = true) :
    ∀ t ∈ (terminalsOf source).head?, t.kind ∈ wordKinds := by
  obtain ⟨rest, same, run⟩ := longestRun_takeWhile isWordByte source
  intro t ht
  cases source with
  | nil =>
    rw [terminalsOf_nil] at ht
    cases ht
  | cons b source =>
    have nonempty : (b :: source).takeWhile isWordByte ≠ [] := by
      rw [List.takeWhile_cons_of_pos (h b rfl)]
      exact List.cons_ne_nil _ _
    rw [same, terminalsOf_word nonempty run] at ht
    cases ht
    exact ofWord_mem_wordKinds _

/-- The terminals of printed statements: the digits in front are one integer. -/
theorem terminalsOf_digits {digits rest : List UInt8} (inside : ∀ b ∈ digits, isDigit b = true)
    (word : ∀ b ∈ rest.head?, isWordByte b = true) (nonempty : digits ≠ []) :
    terminalsOf (digits ++ rest) = ⟨.integer, ofByteValues digits⟩ :: terminalsOf rest := by
  have outside : ∀ b ∈ rest.head?, isDigit b = false ∧ b ≠ point := fun b hb =>
    isDigit_of_isWordByte b (word b hb)
  exact terminalsOf_integer nonempty ⟨inside, fun b hb => (outside b hb).1⟩
    fun hp => (outside point hp).2 rfl

/-- Printed statements do not begin with a terminator. -/
theorem unmarked_printed {ss : List Statement} (wf : ∀ s ∈ ss, s.WellFormed) :
    Unmarked (terminalsOf (printed ss)) := by
  obtain ⟨digits, rest, same, inside, word, -⟩ := exists_digits ss wf
  rw [same]
  by_cases none : digits = []
  · rw [none, List.nil_append]
    intro t ht hk
    have kind := head_terminalsOf_of_word word t ht
    rw [hk] at kind
    exact absurd kind (by decide)
  · rw [terminalsOf_digits inside word none]
    rintro t ⟨⟩
    exact nofun

/-- If two neighbours share no token, the first one ends where it was printed. -/
theorem Statement.endsBefore_printed {s : Statement} {ss : List Statement}
    (wf : ∀ t ∈ ss, t.WellFormed) (apart : ∀ t ∈ ss.head?, s.fuses t = false) :
    s.EndsBefore (printed ss) := by
  cases ss with
  | nil =>
    unfold EndsBefore
    split
    · next e => cases e <;> simp [printed, Expr.EndsBefore]
    · trivial
  | cons t ss =>
    rw [printed_cons]
    have apart := apart t rfl
    have opening := (wf t List.mem_cons_self).bytes_render
    match s with
    | .expr (some (.ident name)) =>
      rcases opening with ⟨-, nonempty, inside⟩ | ⟨noInteger, -⟩
      · intro b hb
        rw [List.head?_append_of_ne_nil _ nonempty] at hb
        exact isWordByte_of_isDigit b (inside b (List.mem_of_mem_head? hb))
      · rw [fuses, noInteger] at apart
        cases apart
    | .expr (some (.int v)) =>
      rcases opening with ⟨isInteger, -⟩ | ⟨-, b, rest, shape, hb⟩
      · rw [fuses, isInteger] at apart
        cases apart
      · rw [shape]
        rintro _ ⟨⟩
        exact isDigit_of_isWordByte b hb
    | .expr none => trivial
    | .bind name value => trivial
    | .ret value => trivial

/-! ## Neighbours that share no token -/

/-- Where no two neighbours share a token, every statement is printed as a phrase. -/
theorem exists_derives_printed {ss : List Statement} (wf : ∀ s ∈ ss, s.WellFormed)
    (apart : ss.IsChain fun s t => s.fuses t = false) :
    ∃ ps, Derives (terminalsOf (printed ss)) ps ∧ ps.map Phrase.statement = ss := by
  induction ss with
  | nil =>
    refine ⟨[], ?_, rfl⟩
    rw [printed, List.flatMap_nil, terminalsOf_nil]
    exact .nil
  | cons s ss ih =>
    have wf' := fun t ht => wf t (List.mem_cons_of_mem s ht)
    obtain ⟨first, later⟩ := List.isChain_cons.mp apart
    obtain ⟨p, spelled, admits, written⟩ := Statement.exists_written (wf s List.mem_cons_self)
    obtain ⟨ps, derives, same⟩ := ih wf' later
    refine ⟨p :: ps, ?_, by rw [List.map_cons, spelled, same]⟩
    rw [printed_cons, written _ (Statement.endsBefore_printed wf' first)]
    exact .cons (admits _) derives

/-! ## Neighbours that share a token -/

/-- A phrase that spells a name on its own begins with that name. -/
theorem Phrase.yield_of_name {p : Phrase} {name : String}
    (h : p.statement = .expr (some (.ident name))) (ts : List Terminal) :
    (p.yield ++ ts).head? = some ⟨.identifier, name⟩ := by
  cases p with
  | bare v b =>
    cases v with
    | name text =>
      cases h
      rfl
    | numeral digits => cases h
  | bind | give | giveNone | giveLast => cases h

/-- A phrase that spells an integer on its own is that integer and perhaps a terminator. -/
theorem Phrase.yield_of_integer {p : Phrase} (h : p.statement.isInteger = true) :
    ∃ digits b, p.yield = ⟨.integer, digits⟩ :: terminator b := by
  cases p with
  | bare v b =>
    cases v with
    | name text => cases h
    | numeral digits => exact ⟨digits, b, rfl⟩
  | bind | give | giveNone | giveLast => cases h

/-- A name that goes on into the next word is not read back. -/
theorem statement_ne_name {name : String} (isName : IsName name) {b : UInt8} {rest : List UInt8}
    (hb : isWordByte b = true) {p : Phrase} {ts : List Terminal}
    (h : terminalsOf (bytes name ++ b :: rest) = p.yield ++ ts) :
    p.statement ≠ .expr (some (.ident name)) := by
  intro spelled
  obtain ⟨behind, same, run⟩ := longestRun_takeWhile isWordByte rest
  generalize rest.takeWhile isWordByte = more at same run
  have inside : ∀ x ∈ bytes name ++ b :: more, isWordByte x = true := by
    intro x hx
    rcases List.mem_append.mp hx with hx | hx
    · exact isName.isWordByte x hx
    rcases List.mem_cons.mp hx with rfl | hx
    · exact hb
    · exact run.inside x hx
  have parts : bytes name ++ b :: rest = (bytes name ++ b :: more) ++ behind := by
    rw [same, List.append_assoc, List.cons_append]
  have first := Phrase.yield_of_name spelled ts
  rw [← h, parts, terminalsOf_word (by simp) ⟨inside, run.outside⟩, List.head?_cons] at first
  -- the word has more bytes than the name
  have text : ofByteValues (bytes name ++ b :: more) = name :=
    congrArg Terminal.text (Option.some.inj first)
  have longer := bytes_ofByteValues fun x hx => isAscii_of_isWordByte (inside x hx)
  rw [text] at longer
  simp at longer

/-- Integers that are printed one after the other are not read back as two. -/
theorem no_second_integer {ss : List Statement} (wf : ∀ s ∈ ss, s.WellFormed) {s : Statement}
    (first : s ∈ ss.head?) (isInteger : s.isInteger = true) {p q : Phrase} {ts : List Terminal}
    (hp : p.statement.isInteger = true) (hq : q.statement.isInteger = true) :
    terminalsOf (printed ss) ≠ p.yield ++ (q.yield ++ ts) := by
  intro h
  obtain ⟨digits, rest, same, inside, word, nonempty⟩ := exists_digits ss wf
  obtain ⟨d, b, hp⟩ := Phrase.yield_of_integer hp
  obtain ⟨e, c, hq⟩ := Phrase.yield_of_integer hq
  rw [same, terminalsOf_digits inside word (nonempty s first isInteger), hp, hq] at h
  -- behind the digits a word begins, and no terminator and no integer
  have behind : terminalsOf rest = terminator b ++ (⟨.integer, e⟩ :: (terminator c ++ ts)) :=
    (List.cons.inj h).2
  have kinds := head_terminalsOf_of_word word
  rw [behind] at kinds
  cases b with
  | true => exact absurd (kinds _ rfl) (by decide)
  | false => exact absurd (kinds _ rfl) (show Kind.integer ∉ wordKinds by decide)

/-- The first two statements that are read back share no token. -/
theorem not_fuses_of_derives {s t : Statement} {ss : List Statement}
    (wf : ∀ u ∈ s :: t :: ss, u.WellFormed) {q : Phrase} {ts : List Terminal} {later : List Phrase}
    (h : terminalsOf (printed (s :: t :: ss)) = q.yield ++ ts) (hq : q.statement = s)
    (more : Derives ts later) (hlater : later.map Phrase.statement = t :: ss) :
    s.fuses t = false := by
  match s with
  | .expr (some (.ident name)) =>
    have isName : IsName name := wf _ List.mem_cons_self
    rcases (wf t (by simp)).bytes_render with ⟨isInteger, -⟩ | ⟨-, b, rest, shape, hb⟩
    · rw [Statement.fuses, isInteger]
      rfl
    · rw [printed_cons, printed_cons, shape, List.cons_append] at h
      exact absurd hq (statement_ne_name isName hb h)
  | .expr (some (.int v)) =>
    cases isInteger : t.isInteger with
    | false => exact isInteger
    | true =>
      obtain ⟨q', later, rfl, hq', -⟩ := List.map_eq_cons_iff.mp hlater
      cases more with
      | cons admits more =>
        refine absurd h (no_second_integer wf rfl rfl ?_ ?_)
        · rw [hq]
          rfl
        · rw [hq', isInteger]
  | .expr none => rfl
  | .bind name value => rfl
  | .ret value => rfl

/-- What is read back has no two neighbours that share a token. -/
theorem isChain_of_derives {ss : List Statement} (wf : ∀ s ∈ ss, s.WellFormed) {ps : List Phrase}
    (derives : Derives (terminalsOf (printed ss)) ps) (spelled : ps.map Phrase.statement = ss) :
    ss.IsChain fun s t => s.fuses t = false := by
  induction ss generalizing ps with
  | nil => exact .nil
  | cons s ss ih =>
    have wf' := fun t ht => wf t (List.mem_cons_of_mem s ht)
    obtain ⟨q, later, rfl, hq, hlater⟩ := List.map_eq_cons_iff.mp spelled
    generalize hts : terminalsOf (printed (s :: ss)) = ts at derives
    cases derives with
    | @cons _ rest _ admits more =>
      have apart : ∀ t ∈ ss.head?, s.fuses t = false := by
        intro t ht
        obtain ⟨ss, rfl⟩ := List.head?_eq_some_iff.mp ht
        exact not_fuses_of_derives wf hts hq more hlater
      -- so the first statement is read as the phrase it is printed as
      obtain ⟨p, -, admits', written⟩ := Statement.exists_written (wf s List.mem_cons_self)
      rw [printed_cons, written _ (Statement.endsBefore_printed wf' apart)] at hts
      obtain ⟨-, behind⟩ := Phrase.yield_cancel (unmarked_printed wf') more.opens.unmarked
        (admits' _) admits hts
      rw [← behind] at more
      exact List.isChain_cons.mpr ⟨apart, ih wf' more hlater⟩

/-! ## Round trip -/

theorem terminals_render (p : Program) :
    (tokens p.render).map Token.terminal = terminalsOf (printed p.statements) := by
  rw [← bytes_render]
  rfl

/--
**A printed program is read back if and only if no two neighbours share a token.** This is about
well-formed programs, and all programs that come of a source without problems are well-formed.
-/
theorem parse_render_iff : (∀ source, (parse source).problems = [] →
        (parse source).program.WellFormed)
      ∧ ∀ p : Program, p.WellFormed →
        (((parse p.render).program = p ∧ (parse p.render).problems = [])
          ↔ p.statements.IsChain fun s t => s.fuses t = false) := by
  refine ⟨fun source => wellFormed_parse, fun p wf => ⟨?_, ?_⟩⟩
  · rintro ⟨same, clean⟩
    obtain ⟨ps, derives, spelled⟩ := exists_derives clean
    rw [terminals_render] at derives
    rw [same] at spelled
    exact isChain_of_derives wf derives spelled.symm
  · intro apart
    obtain ⟨ps, derives, spelled⟩ := exists_derives_printed wf apart
    rw [← terminals_render] at derives
    obtain ⟨clean, same⟩ := parse_of_derives derives
    rw [spelled] at same
    exact ⟨congrArg Program.mk same, clean⟩

/-- Two names may become a keyword, and two integers one. -/
example : let p : Program := ⟨[.expr (some (.ident "re")), .expr (some (.ident "turn"))]⟩
    p.WellFormed ∧ (parse p.render).program = ⟨[.ret none]⟩ := by decide +kernel

example : let p : Program := ⟨[.expr (some (.int 0)), .expr (some (.int 0))]⟩
    p.WellFormed ∧ (parse p.render).program = ⟨[.expr (some (.int 0))]⟩ := by decide +kernel

end Scriptlet
