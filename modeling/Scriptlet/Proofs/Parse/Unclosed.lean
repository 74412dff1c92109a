import Scriptlet.Proofs.Parse.Blame
import Scriptlet.Proofs.Parse.Following
import Scriptlet.Proofs.Parse.Recovery

/-!
# Where a string without an end is reported

A source that ends in a string without a closing quote has one defect, and the reader of statements
comes by it in one of several loops: while it begins a statement or its value, while it reads a
header, or while it looks for the end of a broken statement. Which of them it is can be told from
the tokens in front of the string that belong to the same statement (`Role.behind`), and the role
tells what is reported (`Role.problems`).

The statement that the string belongs to is the last one that was begun (`LastStatement`). It is
broken, since no statement is complete with a string at its end, and of the ten ways to read a
statement the five broken ones have one problem of their own. Either that is about the string, and
the defect is right in front of it or behind it, or it is about a token in front, and recovery
passes the string without a word but for the defect (`Reads.reported`). The statements before it
report nothing of the string (`Run.reported`).
-/

namespace Scriptlet

open Cursor (Item)
open Lexeme Text

/-! ## The string at the end -/

/-- The last token is a string of a quote and what is behind it, without another quote. -/
structure EndsOpen (source : String) (t : Token) : Prop where
  last : (tokens source).getLast? = some t
  kind : t.kind = .string
  slice : ∃ content, t.span.slice (bytes source) = quoteMark :: content ∧ quoteMark ∉ content

/-- Such a string goes on to the end of the source. -/
theorem endsOpen_iff {source : String} {t : Token} :
    EndsOpen source t ↔ EndsUnclosed source t := by
  have spells : t ∈ tokens source → t.kind = .string → quoteMark ∉ bytes t.literal
      ∧ (t.span.slice (bytes source) = quoteMark :: (bytes t.literal ++ [quoteMark])
        ∨ t.span.slice (bytes source) = quoteMark :: bytes t.literal
          ∧ t.span.stop = (bytes source).length) := by
    intro mem kind
    obtain ⟨-, le, spells⟩ := (tiles_tokens source).spells_slice [] rfl t mem
    rw [kind, List.nil_append] at spells
    refine ⟨spells.1, spells.2.imp_right fun ⟨slice, ends⟩ => ⟨slice, ?_⟩⟩
    exact Nat.le_antisymm le (List.drop_eq_nil_iff.mp ends)
  constructor
  · rintro ⟨last, kind, content, slice, free⟩
    obtain ⟨-, closed | ⟨slice, stop⟩⟩ := spells (List.mem_of_getLast? last) kind
    · rw [slice] at closed
      rw [(List.cons.inj closed).2] at free
      exact absurd (by simp) free
    · exact ⟨last, kind, slice, stop⟩
  · rintro ⟨last, kind, slice, stop⟩
    exact ⟨last, kind, _, slice, (spells (List.mem_of_getLast? last) kind).1⟩

/-! ## Roles -/

/-- What the reader of statements does with a token. -/
inductive Role where
  /-- A statement or the value of one is to begin with it. -/
  | value
  /-- A header is to go on with it, and only does with this kind. -/
  | header (wanted : Kind)
  /-- It is passed on the way to the end of a broken statement. -/
  | passed
deriving DecidableEq

/-- The role of a token behind the first tokens of its statement. -/
def Role.behind (part : List Token) : Role :=
  match part.map Token.kind with
  | [] | [.returnWord] | [.letWord, .identifier, .assign] => .value
  | [.letWord] => .header .identifier
  | [.letWord, .identifier] => .header .assign
  | _ => .passed

/-- What is reported of a string without an end. -/
def Role.problems (t : Token) : Role → List Problem
  | .value => [.defect (.unclosedString t.span), .noExpression t]
  | .header wanted => [.wrongKind wanted t, .defect (.unclosedString t.span)]
  | .passed => [.defect (.unclosedString t.span)]

namespace Role

variable {l name b : Token} {header : List Token}

theorem behind_let (hl : l.kind = .letWord) : behind [l] = .header .identifier := by
  simp [behind, hl]

theorem behind_name (hl : l.kind = .letWord) (hname : name.kind = .identifier) :
    behind [l, name] = .header .assign := by
  simp [behind, hl, hname]

theorem behind_header (h : Header header) : behind header = .value := by
  cases h with
  | giving hr => simp [behind, hr]
  | binding hl hname hsign => simp [behind, hl, hname, hsign]

/-- Behind a token that is no name a binding is broken. -/
theorem behind_noName (hl : l.kind = .letWord) (hb : b.kind ≠ .identifier) (more : List Token) :
    behind (l :: b :: more) = .passed := by
  unfold behind
  split <;> simp_all

theorem behind_noSign (hl : l.kind = .letWord) (hname : name.kind = .identifier)
    (hb : b.kind ≠ .assign) (more : List Token) :
    behind (l :: name :: b :: more) = .passed := by
  unfold behind
  split <;> simp_all

/-- Behind the token that is to be the value nothing is wanted any more. -/
theorem behind_value (h : Header header) (b : Token) (more : List Token) :
    behind (header ++ b :: more) = .passed := by
  cases h with
  | giving hr => simp [behind, hr]
  | binding hl hname hsign => simp [behind, hl, hname, hsign]

end Role

/-! ## Reports -/

/-- The problems of a source that ends in the string, where `part` are the tokens in front of it in
its statement. -/
structure Reported (t : Token) (part : List Token) (front problems : List Problem) : Prop where
  problems_eq : problems = front ++ (Role.behind part).problems t
  /-- All else is about what is in front of the string, and no defect. -/
  earlier : ∀ p ∈ front, p.isLexical = false ∧ p.span.offset < t.span.offset
  /-- If the string is passed, the problem before tells which token broke the statement. -/
  broken : Role.behind part = .passed → ∃ p ∈ front.getLast?, ∃ b ∈ part, p.span = b.span

/-- The tokens of the statement that was begun last. -/
structure LastStatement (all begun ts : List Token) : Prop where
  suffix : ts <:+ all
  begins : ∀ t ∈ ts.head?, t ∈ begun
  alone : ∀ t ∈ ts.tail, t ∉ begun

/-- There is only one last statement. -/
theorem LastStatement.unique {all begun ts ts' : List Token} (h : LastStatement all begun ts)
    (h' : LastStatement all begun ts') (nonempty : ts ≠ []) (nonempty' : ts' ≠ []) : ts = ts' := by
  -- if one of them were longer, then the other would begin in it
  have equal : ∀ {xs ys : List Token}, xs ≠ [] → (∀ t ∈ xs.head?, t ∈ begun) →
      (∀ t ∈ ys.tail, t ∉ begun) → xs <:+ ys → xs = ys := by
    rintro xs ys filled begins alone ⟨more, rfl⟩
    cases more with
    | nil => rfl
    | cons u more =>
      cases xs with
      | nil => exact absurd rfl filled
      | cons x xs => exact absurd (begins x rfl) (alone x (by simp))
  rcases List.suffix_or_suffix_of_suffix h.suffix h'.suffix with within | within
  · exact equal nonempty h.begins h'.alone within
  · exact (equal nonempty' h'.begins h.alone within).symm

/-- The only statement is the last one. -/
theorem lastStatement_single {t : Token} {rest : List Token} (fresh : t ∉ rest) :
    LastStatement (t :: rest) [t] (t :: rest) where
  suffix := List.suffix_rfl
  begins := by simp
  alone := fun u hu hb => fresh (List.mem_singleton.mp hb ▸ hu)

/-- With a statement in front the last one stays the same. -/
theorem LastStatement.cons {t : Token} {later rest begun ts : List Token}
    (h : LastStatement later begun ts) (within : later <:+ rest) (fresh : t ∉ rest) :
    LastStatement (t :: rest) (t :: begun) ts where
  suffix := h.suffix.trans (within.trans (List.suffix_cons t rest))
  begins := fun u hu => List.mem_cons_of_mem t (h.begins u hu)
  alone := by
    intro u hu hb
    rcases List.mem_cons.mp hb with rfl | hb
    · exact fresh ((h.suffix.trans within).subset (List.mem_of_mem_tail hu))
    · exact h.alone u hu hb

section Ending

variable {text : String} {t : Token} {i j : Item} {items rest : List Item}

/-! ## Items up to the string -/

theorem EndsUnclosed.eq_of_last (ends : EndsUnclosed text t) (front : List Item)
    (suffix : front ++ [j] <:+ itemsOf text) : j.token = t := by
  obtain ⟨pre, same⟩ := suffix
  have last := ends.last
  rw [tokens_eq, ← itemsOf, ← same, ← List.append_assoc, List.getLast?_map,
    List.getLast?_concat] at last
  exact Option.some.inj last

/-- Whatever is left of the items ends in the string. -/
theorem EndsUnclosed.exists_front (ends : EndsUnclosed text t) (suffix : items <:+ itemsOf text)
    (nonempty : items ≠ []) : ∃ part, items.map Item.token = part ++ [t] := by
  rcases List.eq_nil_or_concat items with rfl | ⟨front, j, rfl⟩
  · exact absurd rfl nonempty
  · exact ⟨front.map Item.token, by simp [ends.eq_of_last front (by simpa using suffix)]⟩

/-- The string brings its defect with it. -/
theorem leadProblems_last (ends : EndsUnclosed text j.token) (suffix : [j] <:+ itemsOf text) :
    leadProblems [j] = [.defect (.unclosedString j.token.span)] := by
  have mem : j ∈ itemsOf text := suffix.subset List.mem_cons_self
  rw [leadProblems, leadDefects, (Cursor.standsIn_ofText text).defects_eq j mem,
    Token.defectsIn, if_pos ends.unclosed]
  rfl

/-- A token with others behind it brings none. -/
theorem leadProblems_of_more (suffix : i :: rest <:+ itemsOf text) (more : rest ≠ []) :
    leadProblems (i :: rest) = [] := by
  rcases leadProblems_cases suffix with none | ⟨j, same, -⟩
  · exact none
  · exact absurd (List.cons.inj same).2 more

/-- Recovery to the end of the source reports the defect of the string. -/
theorem skipped_to_end (ends : EndsUnclosed text t) (more : rest ≠ []) :
    ∀ {i : Item}, i :: rest <:+ itemsOf text → (settle (i :: rest)).tail = [] →
      skipped (i :: rest) = [.defect (.unclosedString t.span)] := by
  induction rest with
  | nil => exact absurd rfl more
  | cons j rest ih =>
    intro i suffix toEnd
    have later : j :: rest <:+ itemsOf text := (List.suffix_cons i _).trans suffix
    rw [settle] at toEnd
    rw [skipped]
    split at toEnd
    · cases toEnd
    · next inside =>
      rw [if_neg inside]
      by_cases single : rest = []
      · subst single
        obtain rfl := ends.eq_of_last [] later
        rw [leadProblems_last ends later, skipped_single, List.append_nil]
      · rw [leadProblems_of_more later single, ih single later toEnd, List.nil_append]

/-- The string is no terminator. -/
theorem EndsUnclosed.nil_of_terminated (ends : EndsUnclosed text t)
    (suffix : i :: rest <:+ itemsOf text) (toEnd : (terminated (i :: rest)).tail = []) :
    rest = [] := by
  cases rest with
  | nil => rfl
  | cons s rest =>
    rw [terminated] at toEnd
    split at toEnd
    · next mark =>
      have none : rest = [] := toEnd
      subst none
      have kind := ends.unclosed.kind
      rw [← ends.eq_of_last [i] suffix, mark] at kind
      cases kind
    · cases toEnd

/-- A statement with a value does not end in the string. -/
theorem EndsUnclosed.not_terminated (ends : EndsUnclosed text t) {e : Expr}
    (suffix : i :: rest <:+ itemsOf text) (operand : i.token.operand = .ok e) :
    (terminated (i :: rest)).tail ≠ [] := by
  intro toEnd
  obtain rfl := ends.nil_of_terminated suffix toEnd
  have kind := ends.unclosed.kind
  rw [← ends.eq_of_last [] suffix] at kind
  exact Token.operand_of_fixed kind nofun nofun operand

/-- Of what is left the first token is the string, or it is in front of it. -/
theorem EndsUnclosed.first_cases (ends : EndsUnclosed text t) (suffix : items <:+ itemsOf text)
    (nonempty : items ≠ []) : (∃ j, items = [j] ∧ j.token = t)
      ∨ ∃ b rest mid, items = b :: rest ∧ rest ≠ []
        ∧ items.map Item.token = b.token :: mid ++ [t] ∧ b.token.span.offset < t.span.offset := by
  obtain ⟨b, rest, rfl⟩ := List.exists_cons_of_ne_nil nonempty
  by_cases more : rest = []
  · subst more
    exact .inl ⟨b, rfl, ends.eq_of_last [] suffix⟩
  · obtain ⟨mid, same⟩ := ends.exists_front ((List.suffix_cons b rest).trans suffix) more
    obtain ⟨j, hj, rfl⟩ : ∃ j ∈ rest, j.token = t := by
      rw [← List.mem_map, same]
      simp
    refine .inr ⟨b, rest, mid, rfl, more, ?_, offset_lt_of_mem suffix hj⟩
    rw [List.map_cons, same, List.cons_append]

/-! ## The statement of the string -/

/-- The string is the last token of a statement, and its role in it tells what is reported. -/
def ReportedIn (t : Token) (ts : List Token) (problems : List Problem) : Prop :=
  ∃ part front, ts = part ++ [t] ∧ Reported t part front problems

/-- The string has a role in which something else is reported of it. -/
theorem Reported.at {part : List Token} {problems : List Problem}
    (role : Role.behind part ≠ .passed)
    (told : (Role.behind part).problems t = problems) : Reported t part [] problems :=
  ⟨told.symm, List.forall_mem_nil _, fun passed => absurd passed role⟩

/-- The statement was broken by a token in front of the string. -/
theorem Reported.afterwards {part : List Token} {b : Token} {p : Problem}
    (role : Role.behind part = .passed) (mem : b ∈ part) (own : p.isLexical = false)
    (span : p.span = b.span) (before : b.span.offset < t.span.offset) :
    Reported t part [p] [p, .defect (.unclosedString t.span)] := by
  refine ⟨by rw [role]; rfl, List.forall_mem_singleton.mpr ⟨own, ?_⟩, fun _ => ?_⟩
  · rw [span]
    exact before
  · exact ⟨p, rfl, b, mem, span⟩

/-- A header that does not go on as it has to, up to the string. -/
theorem reported_wrongKind (ends : EndsUnclosed text t) {header : List Token} {wanted : Kind}
    (here : Role.behind header = .header wanted)
    (behind : ∀ b more, b.kind ≠ wanted → Role.behind (header ++ b :: more) = .passed)
    (suffix : i :: rest <:+ itemsOf text) (more : rest ≠ [])
    (other : (lead (stopOf text) rest).kind ≠ wanted)
    (toEnd : (settle (i :: rest)).tail = []) :
    ReportedIn t (header ++ rest.map Item.token)
      (.wrongKind wanted (lead (stopOf text) rest) :: skipped (i :: rest)) := by
  rw [skipped_to_end ends more suffix toEnd]
  rcases ends.first_cases ((List.suffix_cons i rest).trans suffix) more with
    ⟨j, rfl, rfl⟩ | ⟨b, behind', mid, rfl, -, same, before⟩
  · -- the string itself is of the wrong kind
    refine ⟨header, [], rfl, .at ?_ ?_⟩ <;> rw [here]
    · nofun
    · rfl
  · refine ⟨header ++ b.token :: mid, _, by rw [same]; simp,
      .afterwards (behind b.token mid other) (by simp) rfl rfl before⟩

/-- A token that is no value behind a header, up to the string. -/
theorem reported_noValue (ends : EndsUnclosed text t) {header : List Token} {p : Problem}
    (isHeader : Header header) (suffix : items <:+ itemsOf text) (more : items ≠ [])
    (operand : (lead (stopOf text) items).operand = .error p)
    (toEnd : (settle items).tail = []) :
    ReportedIn t (header ++ items.map Item.token) (leadProblems items ++ p :: skipped items) := by
  rcases ends.first_cases suffix more with
    ⟨j, rfl, rfl⟩ | ⟨b, behind', mid, rfl, more, same, before⟩
  · -- the string itself is no value
    obtain rfl := Token.operand_of_string operand ends.unclosed.kind
    refine ⟨header, [], rfl, .at ?_ ?_⟩ <;> rw [Role.behind_header isHeader]
    · nofun
    · rw [leadProblems_last ends suffix, skipped_single]
      rfl
  · rw [leadProblems_of_more suffix more, skipped_to_end ends more suffix toEnd]
    have own := Token.isLexical_of_operand operand
    refine ⟨header ++ b.token :: mid, _, by rw [same]; simp,
      .afterwards (Role.behind_value isHeader b.token mid) (by simp) own
        (Token.span_of_operand operand) before⟩

/-- **The statement at the end reports the string** as its role in this statement tells. -/
theorem Reads.reported {s : Option Statement} {found : List Problem} {behind : List Item}
    (h : Reads (stopOf text) items s found behind) (ends : EndsUnclosed text t)
    (suffix : items <:+ itemsOf text) (toEnd : behind.tail = []) :
    ReportedIn t (items.map Item.token) (leadProblems items ++ found) := by
  have single : ∀ {i : Item}, [i] <:+ itemsOf text → i.token.kind = .string := by
    intro i suffix
    rw [ends.eq_of_last [] suffix]
    exact ends.unclosed.kind
  have filled : ∀ {i : Item} {rest : List Item} {k : Kind}, i :: rest <:+ itemsOf text →
      i.token.kind = k → k ≠ .string → rest ≠ [] := by
    rintro i _ k suffix hk other rfl
    exact other (hk.symm.trans (single suffix))
  cases h with
  | bind hi hname hsign operand =>
    have value := (List.suffix_append [_, _, _] _).trans suffix
    exact absurd toEnd (ends.not_terminated value operand)
  | bindNoName hi hname =>
    have more := filled suffix hi nofun
    rw [leadProblems_of_more suffix more]
    exact reported_wrongKind ends (Role.behind_let hi)
      (fun b more hb => Role.behind_noName hi hb more) suffix more hname toEnd
  | bindNoSign hi hname hsign =>
    have named := (List.suffix_cons _ _).trans suffix
    have more := filled named hname nofun
    rw [leadProblems_of_more suffix (by simp)]
    exact reported_wrongKind ends (Role.behind_name hi hname)
      (fun b more hb => Role.behind_noSign hi hname hb more) named more hsign toEnd
  | bindNoValue hi hname hsign operand =>
    have signed := (List.suffix_append [_, _] _).trans suffix
    have more := filled signed hsign nofun
    rw [leadProblems_of_more suffix (by simp)]
    exact reported_noValue ends (.binding hi hname hsign) ((List.suffix_cons _ _).trans signed) more
      operand toEnd
  | returnEnd hi => cases hi.symm.trans (single suffix)
  | returnMark hi hs =>
    have none := toEnd
    subst none
    cases hs.symm.trans (single ((List.suffix_cons _ _).trans suffix))
  | returnValue hi operand =>
    exact absurd toEnd (ends.not_terminated ((List.suffix_cons _ _).trans suffix) operand)
  | returnNoValue hi hv operand =>
    rw [leadProblems_of_more suffix (by simp)]
    exact reported_noValue ends (.giving hi) ((List.suffix_cons _ _).trans suffix) (by simp)
      operand toEnd
  | bare operand => exact absurd toEnd (ends.not_terminated suffix operand)
  | bareNoValue hi operand =>
    obtain rfl := ends.nil_of_terminated suffix toEnd
    obtain rfl := ends.eq_of_last [] suffix
    obtain rfl := Token.operand_of_string operand ends.unclosed.kind
    rw [leadProblems_last ends suffix]
    exact ⟨[], [], rfl, .at nofun rfl⟩

/-! ## The statements before -/

/-- What a statement in front of others reports is no defect, and not about the string. -/
theorem Reads.earlier {s : Option Statement} {found : List Problem} {behind : List Item}
    (h : Reads (stopOf text) items s found behind) (ends : EndsUnclosed text t)
    (suffix : items <:+ itemsOf text) (more : behind.tail ≠ []) :
    ∀ p ∈ found, p.isLexical = false ∧ p.span.offset < t.span.offset := by
  have later : behind.tail <:+ itemsOf text :=
    (List.tail_suffix behind).trans (h.suffix.trans suffix)
  have before : ∀ p ∈ found, p.span.offset < t.span.offset := by
    intro p hp
    have inFront := (h.spread suffix).inFront p hp
    rcases ends.first_cases later more with ⟨j, same, rfl⟩ | ⟨b, rest, mid, same, -, -, lower⟩
    · rw [same] at inFront
      rcases inFront j rfl with lower | ⟨opening, -⟩
      · exact lower
      · -- a string is no keyword
        rw [opens, ends.unclosed.kind] at opening
        cases opening
    · rw [same] at inFront
      rcases inFront b rfl with lower' | ⟨-, place⟩ <;> omega
  intro p hp
  refine ⟨?_, before p hp⟩
  -- the only defect is that of the string
  obtain ⟨u, blames, -⟩ := h.isBlamed suffix p hp
  cases blames with
  | defect ends' =>
    obtain rfl : u = t := Option.some.inj (ends'.last.symm.trans ends.last)
    exact absurd (before _ hp) (Nat.lt_irrefl _)
  | wrongKind | noExpression | badInteger => rfl

theorem Reported.behind {part : List Token} {front earlier problems : List Problem}
    (h : Reported t part front problems)
    (before : ∀ p ∈ earlier, p.isLexical = false ∧ p.span.offset < t.span.offset) :
    Reported t part (earlier ++ front) (earlier ++ problems) where
  problems_eq := by rw [h.problems_eq, List.append_assoc]
  earlier := List.forall_mem_append.mpr ⟨before, h.earlier⟩
  broken := by
    intro passed
    obtain ⟨p, last, found⟩ := h.broken passed
    have last : front.getLast? = some p := last
    exact ⟨p, by simp [List.getLast?_append, last], found⟩

/-- **The string is reported as its role tells**, which it has in the statement that was begun
last. -/
theorem Run.reported {statements : List Statement} {problems : List Problem} {begun : List Token}
    (h : Run (stopOf text) items statements problems begun) (ends : EndsUnclosed text t)
    (suffix : items <:+ itemsOf text) (nonempty : items ≠ []) : ∃ part front,
      LastStatement (items.map Item.token) begun (part ++ [t])
        ∧ Reported t part front (leadProblems items ++ problems) := by
  have nodup : (items.map Item.token).Nodup := by
    have all := nodup_tokens text
    rw [tokens_eq] at all
    exact all.sublist (suffix.map _).sublist
  induction h with
  | done => exact absurd rfl nonempty
  | @step i rest behind s statements found problems begun reads more ih =>
    obtain ⟨fresh, nodup⟩ := List.nodup_cons.mp nodup
    by_cases toEnd : behind.tail = []
    · -- this is the last statement
      rw [toEnd] at more ⊢
      cases more
      obtain ⟨part, front, same, reported⟩ := reads.reported ends suffix toEnd
      have none : leadProblems [] = [] := rfl
      rw [none, List.append_nil, List.append_nil]
      exact ⟨part, front, same ▸ lastStatement_single fresh, reported⟩
    · have left := reads.tail_suffix
      have filled : rest ≠ [] := by
        rintro rfl
        exact toEnd (List.suffix_nil.mp left)
      have later := left.trans ((List.suffix_cons i rest).trans suffix)
      have within : behind.tail.map Item.token <:+ rest.map Item.token := left.map _
      obtain ⟨part, front, last, reported⟩ := ih later toEnd (nodup.sublist within.sublist)
      refine ⟨part, found ++ front, last.cons within fresh, ?_⟩
      rw [leadProblems_of_more suffix filled]
      exact reported.behind (reads.earlier ends suffix toEnd)

end Ending

/-! ## Sources -/

theorem Role.filterMap_defect?_problems (t : Token) (role : Role) :
    (role.problems t).filterMap Problem.defect? = [.unclosedString t.span] := by
  cases role <;> rfl

/-- All defects that are reported are that of the string. -/
theorem Reported.defects_eq {t : Token} {part : List Token} {front problems : List Problem}
    (h : Reported t part front problems) :
    problems.filterMap Problem.defect? = [.unclosedString t.span] := by
  have none : front.filterMap Problem.defect? = [] := by
    exact List.filterMap_eq_nil_iff.mpr fun p hp => defect?_eq_none (h.earlier p hp).1
  rw [h.problems_eq, List.filterMap_append, none, Role.filterMap_defect?_problems]
  rfl

/-- Of a source that ends in such a string the role is told by the tokens of the last statement. -/
theorem exists_reported {source : String} {t : Token} (ends : EndsUnclosed source t) :
    ∃ part front, LastStatement (tokens source) (parse source).begun (part ++ [t])
      ∧ Reported t part front (parse source).problems := by
  obtain ⟨problems, run, same⟩ := parse_run source
  have nonempty : itemsOf source ≠ [] := by
    intro none
    have last := ends.last
    rw [tokens_eq, ← itemsOf, none] at last
    cases last
  rw [same, tokens_eq]
  exact run.reported ends List.suffix_rfl nonempty

theorem defects_drain_ofText (source : String) :
    (Cursor.ofText source).drain.2.defects = (itemsOf source).flatMap Item.defects :=
  Cursor.defects_drain _

/-- A defect is that of a string at the end. -/
theorem exists_of_defects {source : String} (h : (Cursor.ofText source).drain.2.defects ≠ []) :
    ∃ t, EndsUnclosed source t := by
  rw [defects_drain_ofText] at h
  obtain ⟨i, hi, some⟩ : ∃ i ∈ itemsOf source, i.defects ≠ [] := by
    simpa using h
  obtain ⟨front, rest, same⟩ := List.append_of_mem hi
  rcases lastUnclosed_items source i rest ⟨front, same.symm⟩ with none | ⟨-, rfl, unclosed⟩
  · exact absurd none some
  · refine ⟨i.token, ?_, unclosed⟩
    rw [tokens_eq, ← itemsOf, same, List.map_append]
    simp

/--
**A string without an end is found once, and reported where its role tells.** The tokens of a source
have at most one defect, and there is one exactly if the source ends in a string of a quote and what
is behind it, without another quote. Then the defect covers this string, up to the end of the
source. It is the only defect among the problems, and they end in what is reported of the string: if
a statement or a value is to begin with it, the defect and that it is no value; if it breaks a
header, that it does and then the defect; and the defect alone if it is passed, behind the problem
that tells which token broke the statement before. No other problem is about the string.
-/
theorem unclosed_string_reported (source : String) :
    (Cursor.ofText source).drain.2.defects.length ≤ 1
      ∧ ((Cursor.ofText source).drain.2.defects ≠ [] ↔ ∃ t, EndsOpen source t)
      ∧ (parse source).problems.filterMap Problem.defect? = (Cursor.ofText source).drain.2.defects
      ∧ ∀ t, EndsOpen source t →
        (Cursor.ofText source).drain.2.defects = [.unclosedString t.span]
        ∧ t.span.stop = (bytes source).length
        ∧ (∃ part, LastStatement (tokens source) (parse source).begun (part ++ [t]))
        ∧ ∀ part, LastStatement (tokens source) (parse source).begun (part ++ [t]) →
          ∃ front, Reported t part front (parse source).problems := by
  have unused : Cursor.Used source 0 0 (.ofText source) := .fresh
  have all : (parse source).problems.filterMap Problem.defect?
      = (Cursor.ofText source).drain.2.defects := Window.defects_parse_ofCursor unused
  have single : ∀ t, EndsUnclosed source t →
      (Cursor.ofText source).drain.2.defects = [.unclosedString t.span] := by
    intro t ends
    obtain ⟨part, front, -, reported⟩ := exists_reported ends
    rw [← all, reported.defects_eq]
  refine ⟨?_, ⟨fun some => ?_, ?_⟩, all, fun t ends => ?_⟩
  · have atMost := (lastUnclosed_items source).length_defects_le
    rwa [← defects_drain_ofText] at atMost
  · obtain ⟨t, ends⟩ := exists_of_defects some
    exact ⟨t, endsOpen_iff.mpr ends⟩
  · rintro ⟨t, ends⟩ none
    cases none.symm.trans (single t (endsOpen_iff.mp ends))
  · replace ends := endsOpen_iff.mp ends
    obtain ⟨part, front, last, reported⟩ := exists_reported ends
    refine ⟨single t ends, ends.unclosed.stop, ⟨part, last⟩, fun part' last' => ⟨front, ?_⟩⟩
    have same := List.append_cancel_right (last'.unique last (by simp) (by simp))
    rw [same]
    exact reported

/-- The binding is broken by its second numeral, and the string is passed. -/
def brokenBinding : String := "1; let z 2 \"é"

/-- The string at its end, where the last character has two bytes. -/
def passedString : Token := ⟨.string, "é", ⟨11, 3⟩⟩

/-- The tokens of the binding in front of the string. -/
def brokenPart : List Token :=
  [⟨.letWord, "let", ⟨3, 3⟩⟩, ⟨.identifier, "z", ⟨7, 1⟩⟩, ⟨.integer, "2", ⟨9, 1⟩⟩]

theorem unclosed_string_reported_in_brokenBinding :
    EndsOpen brokenBinding passedString
      ∧ LastStatement (tokens brokenBinding) (parse brokenBinding).begun
          (brokenPart ++ [passedString])
      ∧ (Cursor.ofText brokenBinding).drain.2.defects = [.unclosedString passedString.span]
      ∧ Role.behind brokenPart = .passed
      ∧ ∃ front, Reported passedString brokenPart front (parse brokenBinding).problems := by
  have ends : EndsOpen brokenBinding passedString :=
    ⟨by decide +kernel, rfl, bytes "é", by decide +kernel, by decide⟩
  have last : LastStatement (tokens brokenBinding) (parse brokenBinding).begun
      (brokenPart ++ [passedString]) :=
    ⟨⟨(tokens brokenBinding).take 2, by decide +kernel⟩, by decide +kernel, by decide +kernel⟩
  obtain ⟨-, -, -, told⟩ := unclosed_string_reported brokenBinding
  obtain ⟨found, -, -, reported⟩ := told passedString ends
  exact ⟨ends, last, found, rfl, reported brokenPart last⟩

end Scriptlet
