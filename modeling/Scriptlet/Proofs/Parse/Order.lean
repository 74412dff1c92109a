import Scriptlet.Proofs.Parse.Reading
import Scriptlet.Proofs.Token.Unclosed

/-!
# Problems are in the order of the source

A problem is about the token in front of the reader, or about the one that follows it, or it is a
defect of a token moved onto, so the order of the reports is not that of the reader's steps alone.
`Precedes` says when two problems may follow each other: the first is about an earlier place, or
both are about the string that the source ends in without a closing quote.

One statement keeps to a stretch of the source (`Reads.spread`): its problems are behind its first
token, or about it if it is to be a value, and in front of the token at which the next statement
begins. That token may be blamed once more only by a statement that was stopped in front of it,
which takes a keyword, and a statement that begins with a keyword does not blame it. So the order is
carried along the source (`Run.placed`).
-/

namespace Scriptlet

open Cursor (Item)
open Text

/-! ## The items of a text -/

/-- The text ends in a string without a closing quote. -/
structure EndsUnclosed (text : String) (t : Token) : Prop where
  last : (tokens text).getLast? = some t
  unclosed : t.Unclosed (bytes text)

/-- The items of a text. -/
abbrev itemsOf (text : String) : List Item := (Cursor.ofText text).items

/-- The place where a text ends. -/
abbrev stopOf (text : String) : Nat := (Cursor.ofText text).stop

/-- Where a token or the end begins that stands in front of the items. -/
def leadOffset (text : String) (items : List Item) : Nat := (lead (stopOf text) items).span.offset

variable {text : String} {i j : Item} {items rest later : List Item}

theorem offset_lt_of_mem (h : i :: rest <:+ itemsOf text) (hj : j ∈ rest) :
    i.token.span.offset < j.token.span.offset := by
  have tiled := (tiles_tokens text).pairwise_spans
  rw [tokens_eq, List.pairwise_map] at tiled
  exact (List.rel_of_pairwise_cons (tiled.sublist h.sublist) hj).1

theorem offset_lt_stopOf (h : i ∈ itemsOf text) : i.token.span.offset < stopOf text := by
  obtain ⟨pos, le, -⟩ := (tiles_tokens text).spells_slice [] rfl _ (mem_tokens_of_mem h)
  have same : stopOf text = (bytes text).length := Nat.zero_add _
  rw [List.nil_append, Span.stop] at le
  omega

/-- What is left behind an item begins behind it, the end of the source as well. -/
theorem offset_lt_leadOffset (h : i :: rest <:+ itemsOf text) (suffix : later <:+ rest) :
    i.token.span.offset < leadOffset text later := by
  cases later with
  | nil => exact offset_lt_stopOf (h.subset List.mem_cons_self)
  | cons j later => exact offset_lt_of_mem h (suffix.subset List.mem_cons_self)

/-- The first token brings no problem, or it is the string that the text ends in. -/
theorem leadProblems_cases (h : items <:+ itemsOf text) : leadProblems items = []
    ∨ ∃ j, items = [j] ∧ EndsUnclosed text j.token
      ∧ leadProblems items = [.defect (.unclosedString j.token.span)] := by
  cases items with
  | nil => exact .inl rfl
  | cons j rest =>
    rcases lastUnclosed_items text j rest h with none | ⟨defects, rfl, unclosed⟩
    · refine .inl ?_
      rw [leadProblems, leadDefects, none, List.map_nil]
    · have last : (itemsOf text).getLast? = some j := by
        obtain ⟨front, same⟩ := h
        rw [← same, List.getLast?_concat]
      refine .inr ⟨j, rfl, ⟨?_, unclosed⟩, ?_⟩
      · rw [tokens_eq, List.getLast?_map]
        exact congrArg _ last
      · rw [leadProblems, leadDefects, defects, List.map_cons, List.map_nil]

/-- Behind a single token there is none that recovery moves onto. -/
theorem skipped_single (i : Item) : skipped [i] = [] := by
  rw [skipped]
  split <;> rfl

/-- Recovery passes tokens without defects, but perhaps for the last one. -/
theorem skipped_cases (h : items <:+ itemsOf text) : skipped items = []
    ∨ ∃ front j, items = front ++ [j] ∧ front ≠ [] ∧ EndsUnclosed text j.token
      ∧ skipped items = [.defect (.unclosedString j.token.span)] ∧ (settle items).tail = [] := by
  induction items with
  | nil => exact .inl rfl
  | cons i rest ih =>
    rw [skipped, settle]
    split
    · exact .inl rfl
    · have suffix : rest <:+ itemsOf text := (List.suffix_cons i rest).trans h
      rcases leadProblems_cases suffix with none | ⟨j, rfl, ends, found⟩
      · rw [none, List.nil_append]
        rcases ih suffix with quiet | ⟨front, j, rfl, -, ends, found, left⟩
        · exact .inl quiet
        · exact .inr ⟨i :: front, j, rfl, by simp, ends, found, left⟩
      · have left : (settle [j]).tail = [] := by
          rw [settle]
          split <;> rfl
        refine .inr ⟨[i], j, rfl, by simp, ends, ?_, left⟩
        rw [found, skipped_single, List.append_nil]

/-- What is left behind the end of a broken statement. -/
theorem tail_settle_suffix (items : List Item) : (settle items).tail <:+ items.tail := by
  cases items with
  | nil => exact List.suffix_rfl
  | cons i rest =>
    rw [settle]
    split
    · exact List.suffix_rfl
    · exact (List.tail_suffix _).trans (settle_suffix rest)

/-! ## Places of problems -/

/-- The one problem may be reported in front of the other. -/
inductive Precedes (text : String) : Problem → Problem → Prop where
  | before {p q : Problem} (h : p.span.offset < q.span.offset) : Precedes text p q
  | defectFirst {t : Token} (ends : EndsUnclosed text t) :
    Precedes text (.defect (.unclosedString t.span)) (.noExpression t)
  | defectLast {t : Token} (ends : EndsUnclosed text t) (wanted : Kind) :
    Precedes text (.wrongKind wanted t) (.defect (.unclosedString t.span))

theorem Precedes.le {p q : Problem} (h : Precedes text p q) : p.span.offset ≤ q.span.offset := by
  cases h with
  | before h => exact Nat.le_of_lt h
  | defectFirst | defectLast => exact Nat.le_refl _

/-- The problem of a token that is no value is about this token. -/
theorem Token.span_of_operand {t : Token} {p : Problem} (h : t.operand = .error p) :
    p.span = t.span := by
  unfold Token.operand at h
  split at h
  · cases h
  · split at h
    · cases h
    · cases h
      rfl
  · cases h
    rfl

/-- A string is no value. -/
theorem Token.operand_of_string {t : Token} {p : Problem} (h : t.operand = .error p)
    (hk : t.kind = .string) : p = .noExpression t := by
  rw [Token.operand, hk] at h
  cases h
  rfl

/-- The problems are in order and about what is behind the first token, or about the first token if
it is to be a value. -/
structure Placed (text : String) (items : List Item) (problems : List Problem) : Prop where
  ordered : problems.Pairwise (Precedes text)
  behind : ∀ p ∈ problems, leadOffset text items < p.span.offset
    ∨ opens items = false ∧ (lead (stopOf text) items).operand = .error p

/-- The problem is about what is in front of the items, or about a keyword that they begin with. -/
def InFront (later : List Item) (p : Problem) : Prop :=
  ∀ j ∈ later.head?, p.span.offset < j.token.span.offset
    ∨ opens later = true ∧ p.span.offset = j.token.span.offset

theorem inFront_nil (p : Problem) : InFront [] p := by
  intro j hj
  cases hj

/-- The problems of one statement, behind which `later` is left. -/
structure Spread (text : String) (items : List Item) (problems : List Problem)
    (later : List Item) : Prop extends Placed text items problems where
  inFront : ∀ p ∈ problems, InFront later p

theorem Spread.single {p : Problem} (behind : leadOffset text items < p.span.offset
      ∨ opens items = false ∧ (lead (stopOf text) items).operand = .error p)
    (inFront : InFront later p) : Spread text items [p] later where
  ordered := List.pairwise_singleton _ _
  behind := List.forall_mem_singleton.mpr behind
  inFront := List.forall_mem_singleton.mpr inFront

theorem Spread.pair {p q : Problem} (order : Precedes text p q)
    (behind : leadOffset text items < p.span.offset) (first : InFront later p)
    (second : InFront later q) : Spread text items [p, q] later where
  ordered := List.pairwise_pair.mpr order
  behind := List.forall_mem_cons.mpr ⟨.inl behind,
    List.forall_mem_singleton.mpr (.inl (Nat.lt_of_lt_of_le behind order.le))⟩
  inFront := List.forall_mem_cons.mpr ⟨first, List.forall_mem_singleton.mpr second⟩

/-! ## One statement -/

section Statement

variable {first : Item} {mid behind : List Item} {s : Option Statement} {p : Problem}
  {found : List Problem}

/-- What is behind the first of some items is in front of what is left behind them. -/
theorem leadOffset_lt_of_mem_head (h : items <:+ itemsOf text) (suffix : later <:+ items.tail)
    (hj : j ∈ later.head?) : leadOffset text items < j.token.span.offset := by
  cases items with
  | nil =>
    have none : later = [] := List.suffix_nil.mp suffix
    subst none
    cases hj
  | cons i rest => exact offset_lt_of_mem h (suffix.subset (List.mem_of_mem_head? hj))

/-- A token of the wrong kind, and recovery behind it. -/
theorem spread_wrongKind (h : first :: mid <:+ itemsOf text) (inside : i :: rest <:+ first :: mid)
    (hi : i.token.kind ≠ .semicolon) (wanted : Kind) :
    Spread text (first :: mid) (.wrongKind wanted (lead (stopOf text) rest) :: skipped (i :: rest))
      (settle (i :: rest)).tail := by
  have suffix := inside.trans h
  have behind : rest <:+ mid := by
    rcases List.suffix_cons_iff.mp inside with same | later
    · exact (List.cons.inj same).2 ▸ List.suffix_rfl
    · exact (List.suffix_cons i rest).trans later
  have lower : first.token.span.offset < leadOffset text rest := offset_lt_leadOffset h behind
  rcases skipped_cases suffix with quiet | ⟨front, last, same, nonempty, ends, found, left⟩
  · rw [quiet]
    refine .single (.inl lower) ?_
    intro j hj
    rw [settle] at hj ⊢
    split at hj
    · next atBoundary =>
      -- recovery stops at once, which takes a keyword that follows
      rw [if_pos atBoundary]
      obtain ⟨rest', same⟩ := List.head?_eq_some_iff.mp hj
      have same : rest = j :: rest' := same
      subst same
      exact .inr ⟨atBoundary.resolve_left hi, rfl⟩
    · exact .inl (leadOffset_lt_of_mem_head ((List.suffix_cons i rest).trans suffix)
        (tail_settle_suffix rest) hj)
  · rw [found, left]
    refine .pair ?_ lower (inFront_nil _) (inFront_nil _)
    -- the string at the end is the wrong token itself, or it is behind it
    cases front with
    | nil => exact absurd rfl nonempty
    | cons _ front =>
      obtain ⟨rfl, rfl⟩ := List.cons.inj same
      cases front with
      | nil => exact .defectLast ends wanted
      | cons r front =>
        have after : r :: (front ++ [last]) <:+ itemsOf text := (List.suffix_cons i _).trans suffix
        exact .before (offset_lt_of_mem after (by simp))

/-- A token that is no value, and recovery behind it. -/
theorem spread_noValue (h : first :: mid <:+ itemsOf text) (inside : rest <:+ mid)
    (operand : (lead (stopOf text) rest).operand = .error p) :
    Spread text (first :: mid) (leadProblems rest ++ p :: skipped rest) (settle rest).tail := by
  have suffix : rest <:+ itemsOf text := (inside.trans (List.suffix_cons first mid)).trans h
  have place : p.span.offset = leadOffset text rest :=
    congrArg Span.offset (Token.span_of_operand operand)
  have lower : first.token.span.offset < p.span.offset := by
    rw [place]
    exact offset_lt_leadOffset h inside
  have own : InFront (settle rest).tail p := by
    intro j hj
    rw [place]
    exact .inl (leadOffset_lt_of_mem_head suffix (tail_settle_suffix rest) hj)
  rcases leadProblems_cases suffix with none | ⟨last, rfl, ends, found⟩
  · rw [none, List.nil_append]
    rcases skipped_cases suffix with quiet | ⟨front, last, rfl, nonempty, ends, found, left⟩
    · rw [quiet]
      exact .single (.inl lower) own
    · rw [found, left]
      refine .pair (.before ?_) lower (inFront_nil _) (inFront_nil _)
      rw [place]
      cases front with
      | nil => exact absurd rfl nonempty
      | cons r front => exact offset_lt_of_mem suffix (by simp)
  · -- the string at the end stands where the value has to be
    obtain rfl := Token.operand_of_string operand ends.unclosed.kind
    rw [found, skipped_single]
    exact .pair (.defectFirst ends) lower own own

theorem tail_terminated_suffix (i : Item) (rest : List Item) :
    (terminated (i :: rest)).tail <:+ rest := by
  cases rest with
  | nil => exact List.suffix_rfl
  | cons m rest =>
    rw [terminated]
    split
    · exact List.suffix_cons m rest
    · exact List.suffix_rfl

/-- **The problems of a statement are in order and on its stretch of the source.** -/
theorem Reads.spread (h : Reads (stopOf text) items s found behind)
    (suffix : items <:+ itemsOf text) : Spread text items found behind.tail := by
  have nothing : ∀ {items later : List Item}, Spread text items [] later :=
    ⟨⟨.nil, by simp⟩, by simp⟩
  cases h with
  | bind | returnEnd | returnMark | returnValue | bare => exact nothing
  | bindNoName hi =>
    exact spread_wrongKind suffix List.suffix_rfl (by rw [hi]; nofun) _
  | bindNoSign hi hname =>
    exact spread_wrongKind suffix (List.suffix_cons _ _) (by rw [hname]; nofun) _
  | bindNoValue hi hname hsign operand =>
    exact spread_noValue suffix ((List.suffix_cons _ _).trans (List.suffix_cons _ _)) operand
  | returnNoValue hi hv operand =>
    exact spread_noValue suffix List.suffix_rfl operand
  | @bareNoValue i rest p hi operand =>
    refine .single (.inr ⟨hi, operand⟩) fun j hj => .inl ?_
    rw [Token.span_of_operand operand]
    exact offset_lt_of_mem suffix
      ((tail_terminated_suffix i rest).subset (List.mem_of_mem_head? hj))

end Statement

/-! ## Statements along the source -/

section Source

variable {statements : List Statement} {problems : List Problem} {begun : List Token}

/-- A defect of the first token comes in front of the problems of the statements. -/
theorem Placed.lead_ordered (h : Placed text items problems) (suffix : items <:+ itemsOf text) :
    (leadProblems items ++ problems).Pairwise (Precedes text) := by
  rcases leadProblems_cases suffix with none | ⟨j, rfl, ends, found⟩
  · rw [none]
    exact h.ordered
  · rw [found]
    refine List.pairwise_cons.mpr ⟨fun p hp => ?_, h.ordered⟩
    rcases h.behind p hp with behind | ⟨-, operand⟩
    · exact .before behind
    · obtain rfl := Token.operand_of_string operand ends.unclosed.kind
      exact .defectFirst ends

theorem Placed.leadOffset_le (h : Placed text items problems) (suffix : items <:+ itemsOf text)
    {p : Problem} (hp : p ∈ leadProblems items ++ problems) :
    leadOffset text items ≤ p.span.offset := by
  rcases List.mem_append.mp hp with hp | hp
  · rcases leadProblems_cases suffix with none | ⟨j, rfl, -, found⟩
    · rw [none] at hp
      cases hp
    · rw [found] at hp
      obtain rfl := List.mem_singleton.mp hp
      exact Nat.le_refl _
  · rcases h.behind p hp with behind | ⟨-, operand⟩
    · exact Nat.le_of_lt behind
    · rw [Token.span_of_operand operand]
      exact Nat.le_refl _

/-- With a keyword in front, no problem is about the first token. -/
theorem Placed.leadOffset_lt (h : Placed text items problems) (suffix : items <:+ itemsOf text)
    (opening : opens items = true) {p : Problem} (hp : p ∈ leadProblems items ++ problems) :
    leadOffset text items < p.span.offset := by
  have quiet : leadProblems items = [] := by
    rcases leadProblems_cases suffix with none | ⟨j, rfl, ends, -⟩
    · exact none
    · rw [opens, ends.unclosed.kind] at opening
      cases opening
  rw [quiet, List.nil_append] at hp
  rcases h.behind p hp with behind | ⟨closed, -⟩
  · exact behind
  · exact absurd (closed.symm.trans opening) Bool.false_ne_true

/-- **The problems of all statements are in the order of the source.** -/
theorem Run.placed (h : Run (stopOf text) items statements problems begun)
    (suffix : items <:+ itemsOf text) : Placed text items problems := by
  induction h with
  | done => exact ⟨.nil, by simp⟩
  | @step i rest behind s statements found problems begun reads more ih =>
    have left := reads.tail_suffix
    have later : behind.tail <:+ itemsOf text := left.trans ((List.suffix_cons i rest).trans suffix)
    have spread := reads.spread suffix
    have placed := ih later
    refine ⟨List.pairwise_append.mpr ⟨spread.ordered, placed.lead_ordered later, ?_⟩, ?_⟩
    · intro p hp q hq
      refine .before ?_
      have inFront := spread.inFront p hp
      cases hleft : behind.tail with
      | nil =>
        -- nothing is left, and no problem comes of it
        rw [hleft] at more hq
        cases more
        cases hq
      | cons j rest' =>
        rw [hleft] at later placed inFront hq
        rcases inFront j rfl with lower | ⟨opening, same⟩
        · exact Nat.lt_of_lt_of_le lower (placed.leadOffset_le later hq)
        · rw [same]
          exact placed.leadOffset_lt later opening hq
    · intro p hp
      rcases List.mem_append.mp hp with hp | hp
      · exact spread.behind p hp
      · exact .inl (Nat.lt_of_lt_of_le (offset_lt_leadOffset suffix left)
          (placed.leadOffset_le later hp))

end Source

theorem pairwise_precedes (source : String) :
    (parse source).problems.Pairwise (Precedes source) := by
  obtain ⟨problems, run, same⟩ := parse_run source
  rw [same]
  exact (run.placed List.suffix_rfl).lead_ordered List.suffix_rfl

/--
**The problems of a source are in the order of the source**, and two of them are about the same
place only if the source ends in a string without a closing quote: then one is the defect of this
string and the other tells that it is no value or of the wrong kind. In particular no token, and
neither the end, is blamed twice by problems that are no defects.
-/
theorem problems_in_source_order (source : String) :
    (parse source).problems.Pairwise (fun p q => p.span.offset ≤ q.span.offset)
      ∧ (parse source).problems.Pairwise (fun p q => p.span.offset = q.span.offset →
          ∃ t, EndsUnclosed source t
            ∧ (p = .defect (.unclosedString t.span) ∧ q = .noExpression t
              ∨ (∃ wanted, p = .wrongKind wanted t) ∧ q = .defect (.unclosedString t.span)))
      ∧ ((parse source).problems.filter fun p => !p.isLexical).Pairwise
          (fun p q => p.span.offset < q.span.offset) := by
  have ordered := pairwise_precedes source
  refine ⟨ordered.imp fun h => h.le, ordered.imp ?_, (ordered.filter _).imp_of_mem ?_⟩
  · intro p q h same
    cases h with
    | before h => exact absurd same (Nat.ne_of_lt h)
    | defectFirst ends => exact ⟨_, ends, .inl ⟨rfl, rfl⟩⟩
    | defectLast ends wanted => exact ⟨_, ends, .inr ⟨⟨wanted, rfl⟩, rfl⟩⟩
  · intro p q hp hq h
    have noDefect := (List.mem_filter.mp hp).2
    have noDefect' := (List.mem_filter.mp hq).2
    cases h with
    | before h => exact h
    | defectFirst => cases noDefect
    | defectLast => cases noDefect'

end Scriptlet
