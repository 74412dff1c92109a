import Scriptlet.Proofs.Parse.Following

/-!
# What the problems count

A statement that is dropped has exactly one problem of its own, and so has an expression statement
without a value; a complete statement has none. All other problems are defects, and each defect of
the source is reported once. So the number of problems is known from what came of the statements.

`Window.calls` are the windows at which the loop over the statements begins one. That is the loop as
a list: the program is what comes of the statements at these windows (`statements_fst`), and what is
shown for one of them (`Shows.turn`) adds up along the list.
-/

namespace Scriptlet

open Cursor (Item)

/-- Whether a statement came of it, with all its parts. -/
def isComplete : Option Statement → Bool
  | none => false
  | some (.expr none) => false
  | some _ => true

/-- The problems that are no defects. -/
def ownProblems (problems : List Problem) : List Problem := problems.filter fun p => !p.isLexical

theorem ownProblems_append (ps qs : List Problem) :
    ownProblems (ps ++ qs) = ownProblems ps ++ ownProblems qs :=
  List.filter_append ..

theorem ownProblems_leadProblems (items : List Item) : ownProblems (leadProblems items) = [] := by
  rw [ownProblems, List.filter_eq_nil_iff]
  intro p hp
  obtain ⟨d, -, rfl⟩ := List.mem_map.mp hp
  exact Bool.false_ne_true

theorem ownProblems_skipped (items : List Item) : ownProblems (skipped items) = [] := by
  induction items with
  | nil => rfl
  | cons i rest ih =>
    rw [skipped]
    split
    · rfl
    · rw [ownProblems_append, ownProblems_leadProblems, ih, List.append_nil]

theorem ownProblems_of_operand {t : Token} {p : Problem} (h : t.operand = .error p) :
    ownProblems [p] = [p] := by
  have own := Token.isLexical_of_operand h
  rw [ownProblems, List.filter_cons_of_pos (by rw [own]; rfl), List.filter_nil]

/-- **A statement has one problem of its own if it is not complete**, and none otherwise. -/
theorem Reads.length_ownProblems {stop : Nat} {items behind : List Item} {s : Option Statement}
    {found : List Problem} (h : Reads stop items s found behind) :
    (ownProblems found).length = if isComplete s then 0 else 1 := by
  have behindOwn : ∀ {p : Problem} (items : List Item), ownProblems [p] = [p] →
      (ownProblems (p :: skipped items)).length = 1 := by
    intro p items own
    rw [← List.singleton_append, ownProblems_append, own, ownProblems_skipped]
    rfl
  cases h with
  | bind | returnEnd | returnMark | returnValue | bare => rfl
  | bindNoName | bindNoSign => exact behindOwn _ rfl
  | bindNoValue _ _ _ operand | returnNoValue _ _ operand =>
    rw [ownProblems_append, ownProblems_leadProblems, List.nil_append]
    exact behindOwn _ (ownProblems_of_operand operand)
  | bareNoValue _ operand =>
    rw [ownProblems_of_operand operand]
    rfl

/-- Every problem is a defect or one of a statement. -/
theorem length_eq_ownProblems (problems : List Problem) : problems.length
    = (ownProblems problems).length + (problems.filterMap Problem.defect?).length := by
  have lexical : (fun p : Problem => p.defect?.isSome) = Problem.isLexical :=
    funext fun p => (isLexical_eq p).symm
  rw [List.length_filterMap_eq_countP, lexical, ownProblems, ← List.countP_eq_length_filter,
    List.length_eq_countP_add_countP Problem.isLexical, Nat.add_comm]
  simp

/-! ## The loop over the statements -/

namespace Window

/-- The window behind one statement, where the next one begins. -/
def turn (w : Window) : Window :=
  match w.statement.1 with
  | none => w.statement.2.advance
  | some s => (w.statement.2.note (.accepted s)).advance

theorem ahead_turn_lt {w : Window} (notEnd : ¬ w.current.kind = .eof) : w.turn.ahead < w.ahead := by
  unfold turn
  split
  · exact (Steps.statement w).moves.ahead_advance_lt notEnd
  · exact ((Steps.statement w).moves.trans (.note _ _)).ahead_advance_lt notEnd

/-- The windows at which the statements from the current token on begin. -/
def calls (w : Window) : List Window :=
  if w.current.kind = .eof then [] else w :: w.turn.calls
termination_by w.ahead
decreasing_by exact ahead_turn_lt ‹_›

theorem statements_of_ne_eof {w : Window} (notEnd : ¬ w.current.kind = .eof) :
    w.statements = (w.statement.1.toList ++ w.turn.statements.1, w.turn.statements.2) := by
  rw [statements, if_neg notEnd, turn]
  dsimp only
  cases w.statement.1 with
  | none => rfl
  | some s => rfl

/-- The program is what comes of the statements at the windows of the loop. -/
theorem statements_fst (w : Window) :
    w.statements.1 = w.calls.filterMap fun v => v.statement.1 := by
  fun_induction calls w with
  | case1 w atEnd => rw [statements, if_pos atEnd, List.filterMap_nil]
  | case2 w notEnd ih =>
    rw [statements_of_ne_eof notEnd, ih, List.filterMap_cons]
    cases w.statement.1 with
    | none => rfl
    | some s => rfl

variable {stop : Nat} {w : Window} {items : List Item}

/-- One turn of the loop. -/
theorem Shows.turn (h : Shows stop items w) (notEnd : ¬ w.current.kind = .eof) :
    ∃ found behind, Reads stop items w.statement.1 found behind
      ∧ w.statement.2.problems = w.problems ++ found
      ∧ Shows stop behind.tail w.turn
      ∧ w.turn.problems = w.problems ++ found ++ leadProblems behind.tail
      ∧ w.turn.begun = w.begun ++ [w.current] := by
  cases items with
  | nil => exact absurd (h.current_eof_iff.mpr rfl) notEnd
  | cons i rest =>
    obtain ⟨found, behind, reads, shown, problems_eq, begun_eq⟩ := h.statement
    have moved : Goes stop w.statement.2 w.turn (leadProblems behind.tail) behind.tail := by
      unfold Window.turn
      split
      · exact shown.advance
      · exact (shown.noted rfl).trans (shown.note _).advance
    have current : w.current = i.token := h.current
    refine ⟨found, behind, reads, problems_eq, moved.shows, ?_, ?_⟩
    · rw [moved.problems_eq, problems_eq]
    · rw [moved.begun_eq, begun_eq, current]

/-- At each window of the loop one statement is read. -/
theorem Shows.calls (h : Shows stop items w) : ∀ v ∈ w.calls, ∃ found,
    v.statement.2.problems = v.problems ++ found
      ∧ (ownProblems found).length = if isComplete v.statement.1 then 0 else 1 := by
  fun_induction Window.calls w generalizing items with
  | case1 w _ => simp
  | case2 w notEnd ih =>
    obtain ⟨found, behind, reads, problems_eq, shown, -, -⟩ := h.turn notEnd
    intro v hv
    rcases List.mem_cons.mp hv with rfl | hv
    · exact ⟨found, problems_eq, reads.length_ownProblems⟩
    · exact ih shown v hv

/-- Along the loop there is one such problem for each statement that is not complete. -/
theorem Shows.length_ownProblems (h : Shows stop items w) :
    (ownProblems w.statements.2.problems).length = (ownProblems w.problems).length
      + w.calls.countP fun v => !isComplete v.statement.1 := by
  fun_induction Window.calls w generalizing items with
  | case1 w atEnd => rw [Window.statements, if_pos atEnd, List.countP_nil]; rfl
  | case2 w notEnd ih =>
    obtain ⟨found, behind, reads, -, shown, problems_eq, -⟩ := h.turn notEnd
    have own := reads.length_ownProblems
    rw [statements_of_ne_eof notEnd, ih shown, problems_eq, ownProblems_append, ownProblems_append,
      ownProblems_leadProblems, List.append_nil, List.length_append, own, List.countP_cons]
    cases isComplete w.statement.1 with
    | false => exact Nat.add_right_comm _ 1 _
    | true => simp

theorem Shows.begun_statements (h : Shows stop items w) :
    w.statements.2.begun = w.begun ++ w.calls.map Window.current := by
  fun_induction Window.calls w generalizing items with
  | case1 w atEnd => rw [Window.statements, if_pos atEnd, List.map_nil, List.append_nil]
  | case2 w notEnd ih =>
    obtain ⟨found, behind, -, -, shown, -, begun_eq⟩ := h.turn notEnd
    rw [statements_of_ne_eof notEnd, ih shown, begun_eq, List.map_cons, List.append_assoc]
    rfl

end Window

/-! ## Sources -/

/-- Of the results that are not complete some are none, and the others are in the program. -/
theorem countP_not_isComplete (results : List (Option Statement)) :
    (results.countP fun s => !isComplete s)
      = results.countP Option.isNone + (results.filterMap id).count (.expr none) := by
  induction results with
  | nil => rfl
  | cons s results ih =>
    rw [List.countP_cons, ih, List.countP_cons]
    cases s with
    | none =>
      have dropped : (none :: results).filterMap id = results.filterMap id := rfl
      rw [dropped]
      exact Nat.add_right_comm _ _ 1
    | some s =>
      have kept : (some s :: results).filterMap id = s :: results.filterMap id := rfl
      rw [kept, List.count_cons]
      cases s with
      | bind | ret => rfl
      | expr value => cases value <;> rfl

/-- The windows at which the statements of a source begin. -/
def dispatches (source : String) : List Window := (Window.ofCursor (.ofText source)).calls

theorem length_ownProblems_parse (source : String) : (ownProblems (parse source).problems).length
    = (dispatches source).countP fun v => !isComplete v.statement.1 := by
  obtain ⟨shown, first, -⟩ := Window.shows_ofCursor (Cursor.ofText source)
  have own := shown.length_ownProblems
  have none : ownProblems (Window.ofCursor (.ofText source)).problems = [] := by
    rw [first, ownProblems_append, ownProblems_leadProblems]
    rfl
  rw [none, List.length_nil, Nat.zero_add] at own
  exact (congrArg (fun ps => (ownProblems ps).length)
    (Window.problems_parse_ofCursor (.fresh : Cursor.Used source 0 0 _))).trans own

/--
**Every problem is accounted for.** The loop over the statements begins one at each window of
`dispatches`, and each has one problem of its own if it is dropped or has no value, and none if it
is complete. With the defects of the source these are all problems, so a source without problems
has only complete statements.
-/
theorem problems_accounted_for (source : String) :
    (parse source).program.statements = (dispatches source).filterMap (fun v => v.statement.1)
      ∧ (parse source).begun = (dispatches source).map Window.current
      ∧ (∀ v ∈ dispatches source, ∃ found, v.statement.2.problems = v.problems ++ found
          ∧ (ownProblems found).length = if isComplete v.statement.1 then 0 else 1)
      ∧ (parse source).problems.length
          = ((dispatches source).countP fun v => v.statement.1.isNone)
            + (parse source).program.statements.count (.expr none)
            + (Cursor.ofText source).drain.2.defects.length
      ∧ ((parse source).problems = [] →
          ∀ v ∈ dispatches source, isComplete v.statement.1 = true) := by
  obtain ⟨shown, -, noneBegun⟩ := Window.shows_ofCursor (Cursor.ofText source)
  have program : (parse source).program.statements
      = (dispatches source).filterMap fun v => v.statement.1 := Window.statements_fst _
  have own := length_ownProblems_parse source
  refine ⟨program, ?_, shown.calls, ?_, ?_⟩
  · have begun := shown.begun_statements
    rw [noneBegun, List.nil_append] at begun
    exact (Window.begun_parse _).trans begun
  · have counted := countP_not_isComplete ((dispatches source).map fun v => v.statement.1)
    rw [List.countP_map, List.countP_map, List.filterMap_map] at counted
    have defects := Window.defects_parse_ofCursor (.fresh : Cursor.Used source 0 0 _)
    rw [Cursor.defectsIn_self, List.nil_append] at defects
    rw [length_eq_ownProblems, own, program, ← defects]
    exact congrArg (· + _) counted
  · intro clean v hv
    rw [clean] at own
    have complete := List.countP_eq_zero.mp own.symm v hv
    simpa using complete

end Scriptlet
