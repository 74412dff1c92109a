import Scriptlet.Proofs.Parse.Derivation
import Scriptlet.Proofs.Parse.Order

/-!
# What problems are about

Every problem of a source blames one token of its stream, or the end, and says something about it
that is so (`Blames`): that it is of another kind than a header has to go on with, that it begins no
value, that it is a numeral out of range, or that it is the string without a closing quote. No
source nests its expressions too deep, and no numeral is refused for any other reason than its size,
since only runs of digits are read as numerals.

Problems come up in two ways. Defects come with the tokens moved onto, all others are about the
token in front of the reader or the one that follows. Both are first tokens of what is left of the
source (`isBlamed_leadProblems`, `isBlamed_of_operand`, `isBlamed_wrongKind`), and `Reads` names all
places where one of them is added.
-/

namespace Scriptlet

open Text
open Cursor (Item)

/-- The problem tells something of the token that is so. -/
inductive Blames (text : String) : Problem → Token → Prop where
  /-- A token behind `let`, or behind the name that follows it, is of another kind. -/
  | wrongKind {wanted : Kind} {t : Token} (header : wanted = .identifier ∨ wanted = .assign)
      (other : t.kind ≠ wanted) : Blames text (.wrongKind wanted t) t
  /-- A token begins no value. -/
  | noExpression {t : Token} (noName : t.kind ≠ .identifier) (noNumeral : t.kind ≠ .integer) :
      Blames text (.noExpression t) t
  /-- The digits of an integer stand for a value out of range. -/
  | badInteger {t : Token} (numeral : t.kind = .integer) (nonempty : t.literal ≠ "")
      (digits : ∀ c ∈ t.literal.toList, c.isDigit = true)
      (high : Numeral.greatest < Numeral.decimal t.literal) :
      Blames text (.badInteger t.literal t.span .tooLarge) t
  /-- The text ends in a string without a closing quote. -/
  | defect {t : Token} (ends : EndsUnclosed text t) :
      Blames text (.defect (.unclosedString t.span)) t

/-- A token of the text, or its end. -/
def InStream (text : String) (t : Token) : Prop := t ∈ tokens text ∨ t = .eof ⟨(bytes text).length, 0⟩

/-- The problem is about a token of the text, or about its end. -/
def IsBlamed (text : String) (p : Problem) : Prop := ∃ t, Blames text p t ∧ InStream text t

variable {text : String} {items rest behind : List Item} {p : Problem}

theorem Blames.span_eq {t : Token} (h : Blames text p t) : p.span = t.span := by
  cases h <;> rfl

/-! ## Tokens of the stream -/

theorem EndsUnclosed.mem_tokens {t : Token} (h : EndsUnclosed text t) : t ∈ tokens text :=
  List.mem_of_getLast? h.last

/-- What stands in front of the rest of a text is a token of it, or its end. -/
theorem inStream_lead (suffix : items <:+ itemsOf text) :
    InStream text (lead (stopOf text) items) := by
  cases items with
  | nil =>
    have stop : stopOf text = (bytes text).length := Nat.zero_add _
    rw [stop]
    exact .inr rfl
  | cons i rest => exact .inl (mem_tokens_of_mem (suffix.subset List.mem_cons_self))

/-- A token of the stream lies in the text, and only the end covers nothing. -/
theorem InStream.span_bounds {t : Token} (h : InStream text t) :
    t.span.stop ≤ (bytes text).length ∧ (t.span.length = 0 ↔ t.kind = .eof) := by
  rcases h with mem | rfl
  · obtain ⟨pos, le, -⟩ := (tiles_tokens text).spells_slice [] rfl t mem
    exact ⟨le, fun none => absurd none (Nat.ne_of_gt pos),
      fun atEnd => absurd atEnd (kind_ne_eof_of_mem_tokens mem)⟩
  · exact ⟨Nat.le_refl _, fun _ => rfl, fun _ => rfl⟩

/-! ## Problems of the first token -/

theorem isBlamed_unclosed {t : Token} (ends : EndsUnclosed text t) :
    IsBlamed text (.defect (.unclosedString t.span)) := ⟨t, .defect ends, .inl ends.mem_tokens⟩

theorem isBlamed_leadProblems (suffix : items <:+ itemsOf text) :
    ∀ p ∈ leadProblems items, IsBlamed text p := by
  rcases leadProblems_cases suffix with none | ⟨j, rfl, ends, found⟩
  · rw [none]
    exact List.forall_mem_nil _
  · rw [found]
    exact List.forall_mem_singleton.mpr (isBlamed_unclosed ends)

theorem isBlamed_skipped (suffix : items <:+ itemsOf text) :
    ∀ p ∈ skipped items, IsBlamed text p := by
  rcases skipped_cases suffix with none | ⟨front, j, rfl, -, ends, found, -⟩
  · rw [none]
    exact List.forall_mem_nil _
  · rw [found]
    exact List.forall_mem_singleton.mpr (isBlamed_unclosed ends)

theorem isBlamed_wrongKind (suffix : items <:+ itemsOf text) {wanted : Kind}
    (header : wanted = .identifier ∨ wanted = .assign)
    (other : (lead (stopOf text) items).kind ≠ wanted) :
    IsBlamed text (.wrongKind wanted (lead (stopOf text) items)) :=
  ⟨_, .wrongKind header other, inStream_lead suffix⟩

/-- A token that is no value is neither a name nor a numeral, or it is a numeral out of range. -/
theorem Cursor.Item.Lexed.blames_of_operand {i : Item} (h : i.Lexed)
    (operand : i.token.operand = .error p) : Blames text p i.token := by
  by_cases numeral : i.token.kind = .integer
  · obtain ⟨nonempty, digits⟩ := h.digits_of_integer numeral
    rw [h.operand_integer numeral] at operand
    split at operand
    · cases operand
    · next high =>
      cases operand
      exact .badInteger numeral nonempty digits (Nat.lt_of_not_le high)
  · unfold Token.operand at operand
    split at operand
    · cases operand
    · exact absurd ‹_› numeral
    · next noName _ =>
      cases operand
      exact .noExpression noName numeral

theorem isBlamed_of_operand (suffix : items <:+ itemsOf text)
    (operand : (lead (stopOf text) items).operand = .error p) : IsBlamed text p := by
  refine ⟨_, ?_, inStream_lead suffix⟩
  cases items with
  | nil =>
    -- the end of the source
    cases operand
    exact .noExpression nofun nofun
  | cons i rest =>
    exact (Cursor.lexed_of_mem_items _ i (suffix.subset List.mem_cons_self)).blames_of_operand
      operand

/-! ## Statements -/

/-- **Every problem of a statement is about a token of the text, or about its end.** -/
theorem Reads.isBlamed {s : Option Statement} {found : List Problem}
    (h : Reads (stopOf text) items s found behind) (suffix : items <:+ itemsOf text) :
    ∀ p ∈ found, IsBlamed text p := by
  have noValue : ∀ {rest : List Item} {p : Problem}, rest <:+ itemsOf text →
      (lead (stopOf text) rest).operand = .error p →
      ∀ q ∈ leadProblems rest ++ p :: skipped rest, IsBlamed text q := by
    intro rest p suffix operand
    rw [List.forall_mem_append, List.forall_mem_cons]
    exact ⟨isBlamed_leadProblems suffix, isBlamed_of_operand suffix operand,
      isBlamed_skipped suffix⟩
  cases h with
  | bind | returnEnd | returnMark | returnValue | bare => exact List.forall_mem_nil _
  | @bindNoName i rest hi hname =>
    have behind : rest <:+ itemsOf text := (List.suffix_cons i rest).trans suffix
    rw [List.forall_mem_cons]
    exact ⟨isBlamed_wrongKind behind (.inl rfl) hname, isBlamed_skipped suffix⟩
  | @bindNoSign i name rest hi hname hsign =>
    have named : name :: rest <:+ itemsOf text := (List.suffix_cons i _).trans suffix
    have behind : rest <:+ itemsOf text := (List.suffix_cons name rest).trans named
    rw [List.forall_mem_cons]
    exact ⟨isBlamed_wrongKind behind (.inr rfl) hsign, isBlamed_skipped named⟩
  | @bindNoValue i name sign rest p hi hname hsign operand =>
    have header : rest <:+ i :: name :: sign :: rest := ⟨[i, name, sign], rfl⟩
    exact noValue (header.trans suffix) operand
  | @returnNoValue i v rest p hi hv operand =>
    exact noValue ((List.suffix_cons i _).trans suffix) operand
  | bareNoValue hi operand =>
    exact List.forall_mem_singleton.mpr (isBlamed_of_operand suffix operand)

theorem Run.isBlamed {statements : List Statement} {problems : List Problem} {begun : List Token}
    (h : Run (stopOf text) items statements problems begun) (suffix : items <:+ itemsOf text) :
    ∀ p ∈ problems, IsBlamed text p := by
  induction h with
  | done => exact List.forall_mem_nil _
  | step reads more ih =>
    have left := (List.tail_suffix _).trans (reads.suffix.trans suffix)
    rw [List.forall_mem_append, List.forall_mem_append]
    exact ⟨reads.isBlamed suffix, isBlamed_leadProblems left, ih left⟩

/--
**Every problem of a source is about a token of its stream, or about its end**, and says of it what
`Blames` lists. So its span lies in the source, and covers nothing only if it is the end. In
particular no source has expressions that are nested too deep.
-/
theorem problems_blame_tokens (source : String) :
    (∀ p ∈ (parse source).problems, ∃ t, Blames source p t
        ∧ (t ∈ tokens source ∨ t = .eof ⟨(bytes source).length, 0⟩)
        ∧ p.span = t.span ∧ p.span.stop ≤ (bytes source).length
        ∧ (p.span.length = 0 ↔ t.kind = .eof))
      ∧ ∀ limit span, Problem.tooDeep limit span ∉ (parse source).problems := by
  obtain ⟨problems, run, same⟩ := parse_run source
  have all : ∀ p ∈ (parse source).problems, IsBlamed source p := by
    rw [same, List.forall_mem_append]
    exact ⟨isBlamed_leadProblems List.suffix_rfl, run.isBlamed List.suffix_rfl⟩
  refine ⟨fun p hp => ?_, fun limit span deep => ?_⟩
  · obtain ⟨t, blames, inStream⟩ := all p hp
    rw [blames.span_eq]
    exact ⟨t, blames, inStream, rfl, inStream.span_bounds⟩
  · obtain ⟨t, blames, -⟩ := all _ deep
    cases blames

end Scriptlet
