import Scriptlet.Proofs.Parse.Placement
import Scriptlet.Proofs.Token.Joining

/-!
# Problems are local

A source that ends with a `;` has no part in what is read behind it, however many of its statements
are broken: every statement ends at that `;` or in front of it. So a second source is read behind
the first one as it is read alone, and the problems of the two are found one after the other
(`parse_append`).

The two tokens that a reader sees are where this could fail. A statement looks at one token behind
its last one, and that may be the first of the second source. But it only looks for a `;` there, and
only if its own last token is none (`terminated_append`), or if the statement is nothing but a `;`,
which is why the second source must not begin with one.
-/

namespace Scriptlet

open Text
open Cursor (Item)

/-- The last item is a `;`. -/
def Marked (items : List Item) : Prop := ∃ i ∈ items.getLast?, i.token.kind = .semicolon

namespace Marked

variable {i j : Item} {items rest behind : List Item}

theorem of_suffix (h : Marked items) (suffix : behind <:+ items) (nonempty : behind ≠ []) :
    Marked behind := by
  obtain ⟨front, rfl⟩ := suffix
  obtain ⟨i, last, hi⟩ := h
  rw [List.getLast?_append, List.getLast?_eq_some_getLast nonempty, Option.some_or] at last
  rw [← List.getLast?_eq_some_getLast nonempty] at last
  exact ⟨i, last, hi⟩

theorem exists_cons (h : Marked items) : ∃ i rest, items = i :: rest := by
  cases items with
  | nil =>
    obtain ⟨_, last, -⟩ := h
    cases last
  | cons i rest => exact ⟨i, rest, rfl⟩

theorem next (h : Marked (i :: j :: rest)) : Marked (j :: rest) :=
  h.of_suffix (List.suffix_cons _ _) (List.cons_ne_nil _ _)

/-- Another item is not the last one. -/
theorem tail (h : Marked (i :: rest)) (hi : i.token.kind ≠ .semicolon) : Marked rest := by
  cases rest with
  | nil =>
    obtain ⟨_, ⟨⟩, hk⟩ := h
    exact absurd hk hi
  | cons j rest => exact h.next

end Marked

/-! ## Parts of a statement -/

variable {stop stop' : Nat} {items behind more : List Item}

theorem lead_append (h : Marked items) (stop stop' : Nat) (more : List Item) :
    lead stop' (items ++ more) = lead stop items := by
  obtain ⟨i, rest, rfl⟩ := h.exists_cons
  rfl

theorem leadProblems_append (h : Marked items) (more : List Item) :
    leadProblems (items ++ more) = leadProblems items := by
  obtain ⟨i, rest, rfl⟩ := h.exists_cons
  rfl

/-- Recovery goes no further than to the last item. -/
theorem settle_append (h : Marked items) (more : List Item) :
    settle (items ++ more) = settle items ++ more ∧ skipped (items ++ more) = skipped items
      ∧ settle items ≠ [] := by
  induction items with
  | nil =>
    obtain ⟨_, last, -⟩ := h
    cases last
  | cons i rest ih =>
    rw [List.cons_append, settle, skipped, settle, skipped]
    by_cases hi : i.token.kind = .semicolon
    · simp [hi]
    have mark := h.tail hi
    obtain ⟨same, none, nonempty⟩ := ih mark
    have opening : opens (rest ++ more) = opens rest := by
      obtain ⟨j, rest, rfl⟩ := mark.exists_cons
      rfl
    rw [opening]
    split
    · exact ⟨rfl, rfl, List.cons_ne_nil _ _⟩
    · rw [none, leadProblems_append mark]
      exact ⟨same, rfl, nonempty⟩

/-- A statement takes no terminator from behind the last item. -/
theorem terminated_append (h : Marked items) (apart : ∀ j ∈ more.head?, j.token.kind ≠ .semicolon) :
    terminated (items ++ more) = terminated items ++ more ∧ terminated items ≠ [] := by
  match items, h with
  | [], h =>
    obtain ⟨_, last, -⟩ := h
    cases last
  | [i], _ =>
    refine ⟨?_, List.cons_ne_nil _ _⟩
    cases more with
    | nil => rfl
    | cons j more => exact if_neg (apart j rfl)
  | i :: s :: rest, _ =>
    rw [List.cons_append, List.cons_append, terminated, terminated]
    split
    · exact ⟨rfl, List.cons_ne_nil _ _⟩
    · exact ⟨rfl, List.cons_ne_nil _ _⟩

/-! ## Statements -/

/-- **A statement is read alike with other items behind the last one.** -/
theorem Reads.append {s : Option Statement} {found : List Problem}
    (h : Reads stop items s found behind) (mark : Marked items)
    (apart : ∀ j ∈ more.head?, j.token.kind ≠ .semicolon) (stop' : Nat) :
    Reads stop' (items ++ more) s found (behind ++ more) ∧ behind ≠ [] := by
  have other : ∀ {i : Item} {k : Kind}, i.token.kind = k → k ≠ .semicolon →
      i.token.kind ≠ .semicolon :=
    fun hk hne same => hne (hk.symm.trans same)
  cases h with
  | @bind i name sign v rest e hi hname hsign operand =>
    obtain ⟨same, nonempty⟩ := terminated_append mark.next.next.next apart
    rw [← same]
    exact ⟨.bind hi hname hsign operand, nonempty⟩
  | @bindNoName i rest hi hname =>
    have mark' := mark.tail (other hi nofun)
    obtain ⟨same, none, nonempty⟩ := settle_append mark more
    rw [← same, ← none, ← lead_append mark' stop stop' more]
    rw [← lead_append mark' stop stop' more] at hname
    exact ⟨.bindNoName hi hname, nonempty⟩
  | @bindNoSign i name rest hi hname hsign =>
    have mark' := mark.next.tail (other hname nofun)
    obtain ⟨same, none, nonempty⟩ := settle_append mark.next more
    rw [← same, ← none, ← lead_append mark' stop stop' more]
    rw [← lead_append mark' stop stop' more] at hsign
    exact ⟨.bindNoSign hi hname hsign, nonempty⟩
  | @bindNoValue i name sign rest p hi hname hsign operand =>
    have mark' := mark.next.next.tail (other hsign nofun)
    obtain ⟨same, none, nonempty⟩ := settle_append mark' more
    rw [← same, ← none, ← leadProblems_append mark' more]
    rw [← lead_append mark' stop stop' more] at operand
    exact ⟨.bindNoValue hi hname hsign operand, nonempty⟩
  | returnEnd hi =>
    obtain ⟨_, ⟨⟩, hk⟩ := mark
    exact absurd hk (other hi nofun)
  | returnMark hi hs => exact ⟨.returnMark hi hs, List.cons_ne_nil _ _⟩
  | returnValue hi operand =>
    obtain ⟨same, nonempty⟩ := terminated_append mark.next apart
    rw [← same]
    exact ⟨.returnValue hi operand, nonempty⟩
  | returnNoValue hi hv operand =>
    obtain ⟨same, none, nonempty⟩ := settle_append mark.next more
    rw [← same, ← none, ← leadProblems_append mark.next more]
    exact ⟨.returnNoValue hi hv operand, nonempty⟩
  | bare operand =>
    obtain ⟨same, nonempty⟩ := terminated_append mark apart
    rw [← same]
    exact ⟨.bare operand, nonempty⟩
  | bareNoValue hi operand =>
    obtain ⟨same, nonempty⟩ := terminated_append mark apart
    rw [← same]
    exact ⟨.bareNoValue hi operand, nonempty⟩

/-- **Two sources are read one after the other.** -/
theorem Run.append {statements statements' : List Statement} {problems problems' : List Problem}
    {begun begun' : List Token} (h : Run stop items statements problems begun)
    (mark : Marked items) (apart : ∀ j ∈ more.head?, j.token.kind ≠ .semicolon)
    (h' : Run stop' more statements' problems' begun') :
    Run stop' (items ++ more) (statements ++ statements')
      (problems ++ (leadProblems more ++ problems')) (begun ++ begun') := by
  induction h with
  | done =>
    obtain ⟨_, last, -⟩ := mark
    cases last
  | @step i rest behind s statements found problems begun reads later ih =>
    obtain ⟨reads', nonempty⟩ := reads.append mark apart stop'
    have tail : (behind ++ more).tail = behind.tail ++ more := by
      rw [List.tail_append_of_ne_nil nonempty]
    cases hbehind : behind.tail with
    | nil =>
      -- this was the last statement of the first source
      rw [hbehind] at later tail
      cases later
      have joined := Run.step reads' (by rw [tail]; exact h')
      rw [tail] at joined
      simpa [leadProblems, leadDefects] using joined
    | cons j after =>
      have mark' : Marked behind.tail := by
        refine mark.of_suffix ((List.tail_suffix _).trans reads.suffix) ?_
        rw [hbehind]
        exact List.cons_ne_nil _ _
      have joined := Run.step reads' (by rw [tail]; exact ih mark')
      rw [tail, leadProblems_append mark'] at joined
      rw [← hbehind]
      simpa using joined

/-! ## Sources -/

/-- Behind a `;` that is its last byte a text goes on with the items of another one. -/
theorem items_append {front back : String}
    (closed : ∃ t ∈ (tokens front).getLast?, t.kind = .semicolon
      ∧ t.span.stop = (bytes front).length) :
    (Cursor.ofText (front ++ back)).items = (Cursor.ofText front).items
      ++ (Cursor.ofText back).items.map (Item.respan (Span.shift (bytes front).length)) := by
  obtain ⟨t, last, hk, hstop⟩ := closed
  have stop : (Cursor.ofText front).stop = (bytes front).length := Nat.zero_add _
  have admits : Cursor.Admits (bytes back) (Cursor.ofText front) := by
    refine Cursor.admits_of_semicolon _ rfl (fun none => ?_) fun u hu => ?_
    · rw [tokens, none] at last
      cases last
    · cases (show _ = some u from hu).symm.trans (show _ = some t from last)
      rw [stop]
      exact ⟨hk, hstop⟩
  have joined := admits.items_followed rfl
  have whole : (Cursor.ofText front).followed (bytes back) = Cursor.ofText (front ++ back) := by
    simp [Cursor.followed, Cursor.ofText, Cursor.ofBytes]
  rw [whole, stop] at joined
  rw [joined, ← Cursor.items_moved]
  rfl

/--
**The problems of a source are local to its statements.** Behind a source whose last byte is a `;`
another one is read as it is alone: its statements follow those of the first, and its problems
follow the problems of the first, in their new places. The second source must not begin with a `;`,
which could be the terminator of a statement of the first.
-/
theorem parse_append {front back : String}
    (closed : ∃ t ∈ (tokens front).getLast?, t.kind = .semicolon
      ∧ t.span.stop = (bytes front).length)
    (apart : ∀ t ∈ (tokens back).head?, t.kind ≠ .semicolon) :
    (parse (front ++ back)).program.statements
        = (parse front).program.statements ++ (parse back).program.statements
      ∧ (parse (front ++ back)).problems
        = (parse front).problems
          ++ (parse back).problems.map (Problem.shift (bytes front).length) := by
  obtain ⟨found, run, problems⟩ := parse_run front
  obtain ⟨found', run', problems'⟩ := parse_run back
  obtain ⟨all, runAll, problemsAll⟩ := parse_run (front ++ back)
  have mark : Marked (Cursor.ofText front).items := by
    obtain ⟨t, last, hk, -⟩ := closed
    rw [tokens_eq, List.getLast?_map] at last
    obtain ⟨i, hi, rfl⟩ := Option.map_eq_some_iff.mp last
    exact ⟨i, hi, hk⟩
  have apart' : ∀ j ∈ ((Cursor.ofText back).items.map
      (Item.respan (Span.shift (bytes front).length))).head?, j.token.kind ≠ .semicolon := by
    intro j hj
    rw [List.head?_map] at hj
    obtain ⟨i, hi, rfl⟩ := Option.map_eq_some_iff.mp hj
    refine apart i.token ?_
    rw [tokens_eq, List.head?_map, hi]
    rfl
  have stop : Span.shift (bytes front).length ⟨(Cursor.ofText back).stop, 0⟩
      = ⟨(Cursor.ofText (front ++ back)).stop, 0⟩ := by
    simp [Span.shift, Cursor.stop, Cursor.ofText, Cursor.ofBytes]
  have joined := run.append mark apart' (run'.respan stop)
  rw [items_append closed] at runAll problemsAll
  obtain ⟨statements, rfl, -⟩ := joined.unique runAll
  refine ⟨statements, ?_⟩
  have shifted : (parse back).problems.map (Problem.shift (bytes front).length)
      = leadProblems ((Cursor.ofText back).items.map
          (Item.respan (Span.shift (bytes front).length)))
        ++ found'.map (Problem.respan (Span.shift (bytes front).length)) := by
    have same : Problem.respan (Span.shift (bytes front).length)
        = Problem.shift (bytes front).length := funext (Problem.respan_shift _)
    rw [problems', List.map_append, leadProblems_respan, same]
  rw [problemsAll, leadProblems_append mark, problems, shifted, List.append_assoc]

/-- Three statements of the first source are broken, the last of them being a `;` alone, and so are
both of the second, which ends in a string without an end. -/
theorem parse_append_all_broken :
    (∃ t ∈ (tokens "let x 5; return let; ;").getLast?, t.kind = .semicolon
        ∧ t.span.stop = (bytes "let x 5; return let; ;").length)
      ∧ (∀ t ∈ (tokens "let é return \"a").head?, t.kind ≠ .semicolon)
      ∧ (parse ("let x 5; return let; ;" ++ "let é return \"a")).program.statements
        = (parse "let x 5; return let; ;").program.statements
          ++ (parse "let é return \"a").program.statements
      ∧ (parse ("let x 5; return let; ;" ++ "let é return \"a")).problems
        = (parse "let x 5; return let; ;").problems
          ++ (parse "let é return \"a").problems.map
            (Problem.shift (bytes "let x 5; return let; ;").length) := by
  have last : (tokens "let x 5; return let; ;").getLast? = some ⟨.semicolon, ";", ⟨21, 1⟩⟩ := by
    decide +kernel
  have first : (tokens "let é return \"a").head? = some ⟨.letWord, "let", ⟨0, 3⟩⟩ := by
    decide +kernel
  have closed : ∃ t ∈ (tokens "let x 5; return let; ;").getLast?, t.kind = .semicolon
      ∧ t.span.stop = (bytes "let x 5; return let; ;").length :=
    ⟨_, last, rfl, by decide +kernel⟩
  have apart : ∀ t ∈ (tokens "let é return \"a").head?, t.kind ≠ .semicolon := by
    rw [first]
    rintro _ ⟨⟩
    exact nofun
  exact ⟨closed, apart, parse_append closed apart⟩

end Scriptlet
