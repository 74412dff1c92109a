import Scriptlet.Proofs.Parse.Accounting

/-!
# How often the window moves on

Each move of the window shows the next two tokens of the stream, and no reader moves back or past
the end. So the moves tell where the window stands (`At`): while a statement is read the window gets
to the end at most, and only the loop over the statements may move on from there, once. A source of
`n` tokens is read with `n + 2` moves, the two of the first window among them, or with `n + 3` if a
statement has run into the end (`moves_of_parse`).

That a cursor gets on at all is because there is always something to recognize
(`lt_offset_next`).
-/

namespace Scriptlet

open Text (bytes)

/-! ## A cursor gets on -/

namespace Cursor

/-- A cursor that hands out a token goes forward. -/
theorem lt_offset_next {c : Cursor} (notEnd : c.next.1.kind ≠ .eof) :
    c.offset < c.next.2.offset := by
  have shorter := length_rest_next notEnd
  have same := stop_next c
  rw [stop, stop] at same
  omega

theorem length_remaining_le (c : Cursor) : c.remaining.length ≤ c.rest.length := by
  rw [remaining]
  fun_induction drain c with
  | case1 c step atEnd => exact Nat.zero_le _
  | case2 c step notEnd later ih =>
    have shorter := length_rest_next notEnd
    exact Nat.lt_of_le_of_lt ih shorter

/-- The first numbers are those of the tokens that are left, and all later ones are the end. -/
theorem map_tokenAt (c : Cursor) (m : Nat) : (List.range (c.remaining.length + m)).map c.tokenAt
    = c.remaining ++ List.replicate m (.eof ⟨c.stop, 0⟩) := by
  apply List.ext_getElem
  · simp
  · intro n low _
    rw [List.getElem_map, List.getElem_range, tokenAt, next_skip, List.getElem_append]
    split
    · next before => exact (List.getElem_eq_getD _).symm
    · next behind =>
      rw [List.getElem_replicate, List.getD_eq_getElem?_getD,
        List.getElem?_eq_none (Nat.le_of_not_lt behind)]
      rfl

end Cursor

/-! ## Moves -/

/-- The two tokens that are shown, if the event tells of a move. -/
def Event.advanced? : Event → Option (Token × Token)
  | .advanced current following => some (current, following)
  | _ => none

namespace Window

/-- The tokens that each move so far has shown, one pair for each (`moves_advance`). -/
def moves (w : Window) : List (Token × Token) := w.events.toList.filterMap Event.advanced?

theorem moves_note {e : Event} (other : e.advanced? = none) (w : Window) :
    (w.note e).moves = w.moves := by
  simp [moves, note, other]

theorem moves_report (p : Problem) (w : Window) : (w.report p).moves = w.moves := by
  simp [moves, report, Event.advanced?]

theorem moves_advance (w : Window) :
    w.advance.moves = w.moves ++ [(w.advance.current, w.advance.following)] := by
  rw [moves, filterMap_advance (fun _ => rfl) (fun _ => rfl), advance_current, advance_following]
  rfl

/-- The window stands on token number `i` and has moved there token by token. -/
structure At (s : Cursor) (i : Nat) (w : Window) : Prop where
  shows : Shows s.stop (s.items.drop i) w
  moves : w.moves = (.eof ⟨0, 0⟩, s.tokenAt 0)
    :: (List.range (i + 1)).map fun k => (s.tokenAt k, s.tokenAt (k + 1))

variable {s : Cursor} {i : Nat} {w v : Window}

/-- The first window has moved twice, from the end onto the first token. -/
theorem at_ofCursor (c : Cursor) : At c 0 (ofCursor c) := by
  have shows : Shows c.stop (c.items.drop 0) (ofCursor c) := (shows_ofCursor c).1
  refine ⟨shows, ?_⟩
  rw [ofCursor, moves_advance, moves_advance, ← ofCursor, shows.current_eq_tokenAt,
    shows.following_eq_tokenAt, advance_current, advance_following]
  rfl

theorem At.current_eof_iff (h : At s i w) : w.current.kind = .eof ↔ s.items.length ≤ i :=
  h.shows.current_eof_iff.trans List.drop_eq_nil_iff

theorem At.note (h : At s i w) {e : Event} (other : e.advanced? = none) : At s i (w.note e) :=
  ⟨h.shows.note e, (moves_note other w).trans h.moves⟩

theorem At.report (h : At s i w) (p : Problem) : At s i (w.report p) :=
  ⟨(h.shows.report p).shows, (moves_report p w).trans h.moves⟩

/-- Moving on goes to the next number, at the end as well. -/
theorem At.advance (h : At s i w) : At s (i + 1) w.advance := by
  have shows := h.shows.advance_drop.shows
  refine ⟨shows, ?_⟩
  rw [moves_advance, h.moves, shows.current_eq_tokenAt, shows.following_eq_tokenAt,
    List.range_succ (n := i + 1), List.map_append, List.cons_append]
  rfl

/-- **Reading a statement gets to the end at most.** -/
theorem At.of_steps (h : At s i w) (inside : i ≤ s.items.length) (steps : Steps w v) :
    ∃ j, i ≤ j ∧ j ≤ s.items.length ∧ At s j v := by
  induction steps with
  | refl => exact ⟨i, Nat.le_refl i, inside, h⟩
  | @note v e _ own ih =>
    obtain ⟨j, le, inside, here⟩ := ih
    have other : e.advanced? = none := by cases e <;> first | rfl | cases own
    exact ⟨j, le, inside, here.note other⟩
  | report _ _ ih =>
    obtain ⟨j, le, inside, here⟩ := ih
    exact ⟨j, le, inside, here.report _⟩
  | advance _ ahead ih =>
    obtain ⟨j, le, inside, here⟩ := ih
    -- neither token is the end if all items are passed
    have more : j < s.items.length := by
      refine Nat.lt_of_not_le fun passed => ?_
      have none : s.items.drop j = [] := List.drop_eq_nil_iff.mpr passed
      rcases ahead with notEnd | notEnd
      · exact notEnd (here.shows.current_eof_iff.mpr none)
      · exact notEnd (here.shows.following_eof_iff.mpr (by rw [none, List.tail_nil]))
    exact ⟨j + 1, Nat.le_succ_of_le le, more, here.advance⟩

/-! ## The loop over the statements -/

/-- One turn of the loop moves on from where the statement has ended. -/
theorem At.turn (h : At s i w.statement.2) : At s (i + 1) w.turn := by
  unfold Window.turn
  split
  · exact h.advance
  · exact (h.note rfl).advance

/-- Whether a statement ends with the source, so that the loop moves on from there. -/
def runsOut (w : Window) : Bool := w.calls.any fun v => v.statement.2.current.kind = .eof

theorem At.statements (h : At s i w) (inside : i ≤ s.items.length) :
    At s (s.items.length + if w.runsOut then 1 else 0) w.statements.2 := by
  unfold runsOut
  fun_induction Window.calls w generalizing i with
  | case1 w atEnd =>
    have last : i = s.items.length := Nat.le_antisymm inside (h.current_eof_iff.mp atEnd)
    subst last
    rw [Window.statements, if_pos atEnd]
    exact h
  | case2 w notEnd ih =>
    obtain ⟨j, -, inside, behind⟩ := h.of_steps inside (.statement w)
    rw [statements_of_ne_eof notEnd, List.any_cons]
    dsimp only
    by_cases atEnd : w.statement.2.current.kind = .eof
    · -- the loop moves on from the end, and is done
      have last : j = s.items.length :=
        Nat.le_antisymm inside (behind.current_eof_iff.mp atEnd)
      subst last
      have turned := behind.turn
      have done : w.turn.current.kind = .eof := turned.current_eof_iff.mpr (Nat.le_succ _)
      rw [decide_eq_true atEnd, Bool.true_or, if_pos rfl, Window.statements, if_pos done]
      exact turned
    · have more : j + 1 ≤ s.items.length :=
        Nat.lt_of_not_le fun passed => atEnd (behind.current_eof_iff.mpr passed)
      rw [decide_eq_false atEnd, Bool.false_or]
      exact ih behind.turn more

theorem moves_parse (w : Window) :
    w.parse.events.filterMap Event.advanced? = w.statements.2.moves := by
  rw [events_parse]
  simp [moves, Event.advanced?]

end Window

/-! ## Sources -/

/-- The tokens that each move has shown while a source was read. -/
def Parsed.moves (p : Parsed) : List (Token × Token) := p.events.filterMap Event.advanced?

/-- How often the loop moves on from the end of a source. -/
def overrun (source : String) : Nat :=
  if (Window.ofCursor (.ofText source)).runsOut then 1 else 0

/-- Where the window stands at the end of a source, and the moves that led there. -/
theorem at_end (source : String) : Window.At (Cursor.ofText source)
    ((tokens source).length + overrun source)
    (Window.ofCursor (.ofText source)).statements.2 := by
  have reached := (Window.at_ofCursor (.ofText source)).statements (Nat.zero_le _)
  rwa [← List.length_map Cursor.Item.token, ← Cursor.remaining_eq] at reached

/-- The current token after each move: the end that a window begins with, every token, and the end
of the source. -/
theorem map_fst_moves_parse (source : String) : (parse source).moves.map Prod.fst
    = .eof ⟨0, 0⟩
      :: (tokens source ++ List.replicate (overrun source + 1) (.eof ⟨(bytes source).length, 0⟩)) := by
  have stop : (Cursor.ofText source).stop = (bytes source).length := Nat.zero_add _
  have current : (List.range ((tokens source).length + (overrun source + 1))).map
        (Cursor.ofText source).tokenAt
      = tokens source
        ++ List.replicate (overrun source + 1) (.eof ⟨(bytes source).length, 0⟩) := by
    rw [← stop]
    exact (Cursor.ofText source).map_tokenAt _
  have moves : (parse source).moves = (Window.ofCursor (.ofText source)).statements.2.moves :=
    Window.moves_parse _
  rw [moves, (at_end source).moves, List.map_cons, List.map_map, Nat.add_assoc, ← current]
  rfl

/-- A token is current after one move. -/
theorem count_moves_parse {source : String} {t : Token} (mem : t ∈ tokens source) :
    ((parse source).moves.map Prod.fst).count t = 1 := by
  have notEnd : ∀ span, Token.eof span ≠ t := fun span same =>
    kind_ne_eof_of_mem_tokens mem (by rw [← same]; rfl)
  have others : t ∉ List.replicate (overrun source + 1) (.eof ⟨(bytes source).length, 0⟩) :=
    fun last => notEnd _ (List.eq_of_mem_replicate last).symm
  rw [map_fst_moves_parse, List.count_cons_of_ne (notEnd _), List.count_append,
    (nodup_tokens source).count, if_pos mem, List.count_eq_zero_of_not_mem others]

/--
**Every token of a source is the current one after just one move.** A cursor goes forward with each
token, since there is always something to recognize, so there are at most as many tokens as bytes. A
source of `n` tokens is read with `n + 2` moves of the window, and with one more if a statement ends
with the source. After the first move the window shows the end that it begins with, then each token,
and at last the end of the source.
-/
theorem moves_of_parse (source : String) :
    (∀ c : Cursor, (Lexeme.recognize? (c.rest.drop (Gap.length c.rest))).isSome = true
        ∧ (c.next.1.kind = .eof ∨ c.offset < c.next.2.offset))
      ∧ (tokens source).length ≤ (bytes source).length
      ∧ (parse source).moves.length = (tokens source).length + 2 + overrun source
      ∧ overrun source ≤ 1
      ∧ (parse source).moves.map Prod.fst
        = .eof ⟨0, 0⟩ :: (tokens source
          ++ List.replicate (overrun source + 1) (.eof ⟨(bytes source).length, 0⟩))
      ∧ (∀ t ∈ tokens source, ((parse source).moves.map Prod.fst).count t = 1)
      ∧ (Window.ofCursor (.ofText source)).statements.2.current
        = .eof ⟨(bytes source).length, 0⟩ := by
  refine ⟨?_, (Cursor.ofText source).length_remaining_le, ?_, ?_, map_fst_moves_parse source,
    fun _ mem => count_moves_parse mem, ?_⟩
  · intro c
    refine ⟨Lexeme.recognize?_isSome _, ?_⟩
    by_cases atEnd : c.next.1.kind = .eof
    · exact .inl atEnd
    · exact .inr (Cursor.lt_offset_next atEnd)
  · rw [← List.length_map Prod.fst, map_fst_moves_parse, List.length_cons, List.length_append,
      List.length_replicate]
    omega
  · unfold overrun
    split <;> decide
  · have shows := (at_end source).shows
    have atEnd := Window.current_statements (Window.ofCursor (.ofText source))
    rw [shows.current, shows.current_eof_iff.mp atEnd]
    exact congrArg (fun stop => Token.eof ⟨stop, 0⟩) (Nat.zero_add _)

/-- Both numbers of moves occur, with one token and with two. -/
example : (parse "x").moves.length = 1 + 2 ∧ (parse "let x").moves.length = 2 + 3 := by
  decide +kernel

end Scriptlet
