import Scriptlet.Proofs.Parse.Reading
import Scriptlet.Proofs.Token.Index

/-!
# Where a window stands

`Reached c w` lists the ways to come by a window: by making the first one on a cursor, and by any
step of a reader from a window reached before, in whatever order. Every such window stands somewhere
on the stream of the source, which is what `StandsOn` says of it: its two tokens are neighbours, the
cursor is right behind them, the defects of the following token are pending, and those of the tokens
before it have been reported, each where its token came up.

The steps are put together from moves, notes and reports, so `Tracks` is shown for those three and
with them for every step (`Tracks.of_steps`).
-/

namespace Scriptlet

open Cursor (Used)

/-- The defect that a problem tells of. -/
def Problem.defect? : Problem → Option Defect
  | .defect d => some d
  | _ => none

theorem Problem.filterMap_defect? (ds : List Defect) :
    (ds.map Problem.defect).filterMap Problem.defect? = ds := by
  rw [List.filterMap_map]
  exact List.filterMap_some

theorem isLexical_eq (p : Problem) : p.isLexical = p.defect?.isSome := by
  cases p <;> rfl

theorem defect?_eq_none {p : Problem} (own : p.isLexical = false) : p.defect? = none := by
  rw [isLexical_eq] at own
  exact Option.isNone_iff_eq_none.mp (Option.isSome_eq_false_iff.mp own)

/-! ## Numbers of tokens and what a window shows -/

theorem Cursor.tokenAt_eq_lead (c : Cursor) (n : Nat) :
    c.tokenAt n = lead c.stop (c.items.drop n) := by
  rw [tokenAt, (next_items _).1, stop_skip, items_skip]

theorem Cursor.defectsAt_eq_leadDefects (c : Cursor) (n : Nat) :
    c.defectsAt n = leadDefects (c.items.drop n) := by
  rw [defectsAt, (next_items _).2.1, items_skip]

namespace Window

/-- The window stands on token number `i` of the source that `s` is at the front of, and the defects
from token number `taken` on have been reported as far as they came up. -/
structure StandsOn (s : Cursor) (taken i : Nat) (w : Window) : Prop where
  current : w.current = s.tokenAt i
  following : w.following = s.tokenAt (i + 1)
  ahead : ∀ m, w.cursor.tokenAt m = s.tokenAt (i + 2 + m)
  pending : w.pending = s.defectsAt (i + 1)
  reported : w.problems.filterMap Problem.defect? = s.defectsIn taken (i + 1)

/-- The window stands on the tokens behind the first `n`, and shows what a window does. -/
def Tracks (s : Cursor) (taken n : Nat) (w : Window) : Prop :=
  ∃ i, n ≤ i ∧ Shows s.stop (s.items.drop i) w
    ∧ w.problems.filterMap Problem.defect? = s.defectsIn taken (i + 1)

variable {s : Cursor} {taken n : Nat} {w v : Window}

/-! ## Windows by number -/

variable {i : Nat}

theorem Shows.current_eq_tokenAt (h : Shows s.stop (s.items.drop i) w) :
    w.current = s.tokenAt i := by
  rw [h.current, Cursor.tokenAt_eq_lead]

theorem Shows.following_eq_tokenAt (h : Shows s.stop (s.items.drop i) w) :
    w.following = s.tokenAt (i + 1) := by
  rw [h.following, List.tail_drop, Cursor.tokenAt_eq_lead]

/-- Moving on goes to the next number and reports the defects of the token it goes to. -/
theorem Shows.advance_drop (h : Shows s.stop (s.items.drop i) w) :
    Goes s.stop w w.advance ((s.defectsAt (i + 1)).map .defect) (s.items.drop (i + 1)) := by
  have goes := h.advance
  rw [List.tail_drop, leadProblems, ← Cursor.defectsAt_eq_leadDefects] at goes
  exact goes

/-- A window that shows the items from a number on stands on it. -/
theorem Shows.standsOn (h : Shows s.stop (s.items.drop i) w)
    (reported : w.problems.filterMap Problem.defect? = s.defectsIn taken (i + 1)) :
    StandsOn s taken i w := by
  refine ⟨h.current_eq_tokenAt, h.following_eq_tokenAt, ?_, ?_, reported⟩
  · intro m
    rw [Cursor.tokenAt_eq_lead, h.stop_eq, h.ahead, Cursor.tokenAt_eq_lead, List.tail_drop,
      List.tail_drop, List.drop_drop]
  · rw [h.pending, Cursor.defectsAt_eq_leadDefects, List.tail_drop]

theorem Tracks.exists_standsOn (h : Tracks s taken n w) : ∃ i, n ≤ i ∧ StandsOn s taken i w := by
  obtain ⟨i, hi, shows, reported⟩ := h
  exact ⟨i, hi, shows.standsOn reported⟩

/-- At the end nothing is pending. -/
theorem Tracks.pending_eq_nil (h : Tracks s taken n w) (atEnd : w.current.kind = .eof) :
    w.pending = [] := by
  obtain ⟨i, -, shows, -⟩ := h
  rw [shows.pending, shows.current_eof_iff.mp atEnd]
  rfl

/-! ## Moves, notes and reports -/

theorem Tracks.note (h : Tracks s taken n w) (e : Event) : Tracks s taken n (w.note e) := by
  obtain ⟨i, hi, shows, reported⟩ := h
  exact ⟨i, hi, shows.note e, reported⟩

theorem Tracks.report (h : Tracks s taken n w) {p : Problem} (own : p.isLexical = false) :
    Tracks s taken n (w.report p) := by
  obtain ⟨i, hi, shows, reported⟩ := h
  have quiet := defect?_eq_none own
  have goes := shows.report p
  refine ⟨i, hi, goes.shows, ?_⟩
  rw [goes.problems_eq, List.filterMap_append, List.filterMap_cons_none quiet, List.filterMap_nil,
    List.append_nil, reported]

/-- A move goes to the next token and reports the defects of it. -/
theorem Tracks.advance (le : taken ≤ n) (h : Tracks s taken n w) : Tracks s taken n w.advance := by
  obtain ⟨i, hi, shows, reported⟩ := h
  have goes := shows.advance_drop
  refine ⟨i + 1, Nat.le_succ_of_le hi, goes.shows, ?_⟩
  have before : taken ≤ i + 1 := Nat.le_trans le (Nat.le_succ_of_le hi)
  rw [goes.problems_eq, List.filterMap_append, reported, Problem.filterMap_defect?,
    Cursor.defectsIn_succ s before]

/-- What a reader of statements does is put together from these. -/
theorem Tracks.of_steps (le : taken ≤ n) (h : Tracks s taken n w) (steps : Steps w v) :
    Tracks s taken n v := by
  induction steps with
  | refl => exact h
  | note _ _ ih => exact ih.note _
  | report _ own ih => exact ih.report own
  | advance _ _ ih => exact ih.advance le

/-! ## Windows reached -/

/-- The windows that a reader comes by on its way from the first one on a cursor. -/
inductive Reached (c : Cursor) : Window → Prop where
  | start : Reached c (ofCursor c)
  | note {w : Window} (h : Reached c w) (e : Event) : Reached c (w.note e)
  | advance {w : Window} (h : Reached c w) : Reached c w.advance
  | require_ok {w v : Window} {kind : Kind} (h : Reached c w) (step : w.require kind = .ok v) :
    Reached c v
  | require_error {w v : Window} {kind : Kind} (h : Reached c w)
    (step : w.require kind = .error v) : Reached c v
  | takeTerminator {w : Window} (h : Reached c w) : Reached c w.takeTerminator
  | recover {w : Window} (h : Reached c w) : Reached c w.recover
  | requiredExpression {w : Window} (h : Reached c w) : Reached c w.requiredExpression.2
  | statement {w : Window} (h : Reached c w) : Reached c w.statement.2

/-- The loop over the statements reaches no other windows. -/
theorem Reached.statements {c : Cursor} (h : Reached c w) : Reached c w.statements.2 := by
  fun_induction Window.statements w with
  | case1 w _ => exact h
  | case2 w _ step _ ih => exact ih h.statement.advance
  | case3 w _ step s _ later ih => exact ih (h.statement.note (.accepted s)).advance

/-- At the front of a used cursor a window begins behind the tokens handed out before. -/
theorem tracks_ofCursor {text : String} {c : Cursor} (used : Used text n taken c) :
    Tracks (Cursor.ofText text) taken n (ofCursor c) := by
  obtain ⟨shown, first, -⟩ := shows_ofCursor c
  rw [used.stop_eq, used.items_eq] at shown
  refine ⟨n, Nat.le_refl n, shown, ?_⟩
  rw [first, used.items_eq, List.filterMap_append, leadProblems, Problem.filterMap_defect?,
    Problem.filterMap_defect?, used.defects_eq, Cursor.defectsIn_succ _ used.le,
    Cursor.defectsAt_eq_leadDefects]

/-- **What holds of a window is kept by every step of a reader.** -/
theorem Reached.tracks {text : String} {c : Cursor} (used : Used text n taken c)
    (h : Reached c w) : Tracks (Cursor.ofText text) taken n w := by
  have le := used.le
  induction h with
  | start => exact tracks_ofCursor used
  | note _ e ih => exact ih.note e
  | advance _ ih => exact ih.advance le
  | require_ok _ step ih =>
    -- of any kind, the end among them
    unfold require at step
    split at step
    · cases step
      exact ih.advance le
    · cases step
  | require_error _ step ih => exact ih.of_steps le (.of_require_error step)
  | takeTerminator _ ih => exact ih.of_steps le (.takeTerminator _)
  | recover _ ih => exact ih.of_steps le (.recover _)
  | requiredExpression _ ih => exact ih.of_steps le (.requiredExpression _)
  | statement _ ih => exact ih.of_steps le (.statement _)

theorem current_statements (w : Window) : w.statements.2.current.kind = .eof := by
  fun_induction Window.statements w with
  | case1 w atEnd => exact atEnd
  | case2 w _ step _ ih => exact ih
  | case3 w _ step s _ later ih => exact ih

/-- At the end of the source all defects have been reported but for those taken before. -/
theorem Tracks.defects_eq {text : String} (le : taken ≤ n)
    (h : Tracks (Cursor.ofText text) taken n w) (atEnd : w.current.kind = .eof) :
    (Cursor.ofText text).defectsIn 0 taken ++ w.problems.filterMap Problem.defect?
      = (Cursor.ofText text).drain.2.defects := by
  obtain ⟨i, hi, shows, reported⟩ := h
  have all : (Cursor.ofText text).items.length ≤ i + 1 :=
    Nat.le_succ_of_le (List.drop_eq_nil_iff.mp (shows.current_eof_iff.mp atEnd))
  have before : taken ≤ i + 1 := Nat.le_succ_of_le (Nat.le_trans le hi)
  rw [reported, Cursor.defectsIn_append _ (Nat.zero_le _) before, Cursor.defectsIn_of_length_le all,
    Cursor.defects_drain]
  rfl

/-- Nothing is pending when the source has ended, so nothing is reported any more. -/
theorem problems_parse_ofCursor {text : String} {c : Cursor} (used : Used text n taken c) :
    (ofCursor c).parse.problems = (ofCursor c).statements.2.problems := by
  have tracks := Reached.start.statements.tracks used
  rw [problems_parse, tracks.pending_eq_nil (current_statements _), List.map_nil, List.append_nil]

/-- The problems that are defects are the ones that were not taken before. -/
theorem defects_parse_ofCursor {text : String} {c : Cursor} (used : Used text n taken c) :
    (Cursor.ofText text).defectsIn 0 taken
        ++ (ofCursor c).parse.problems.filterMap Problem.defect?
      = (Cursor.ofText text).drain.2.defects := by
  rw [problems_parse_ofCursor used]
  exact (Reached.start.statements.tracks used).defects_eq used.le (current_statements _)

/--
**Every window stands on the stream of the source.** This goes for a cursor that was used before,
and for every window reached from the first one on, those of the loop among them. At the end of the
source nothing is pending, so nothing is reported any more, and together with the defects that were
taken before the reports hold every defect of the source once.
-/
theorem windows_follow_stream {text : String} {n taken : Nat} {c : Cursor}
    (used : Used text n taken c) :
    (∀ w, Reached c w → (∃ i, n ≤ i ∧ StandsOn (Cursor.ofText text) taken i w)
        ∧ (w.current.kind = .eof → w.pending = []))
      ∧ Reached c (ofCursor c).statements.2
      ∧ (ofCursor c).statements.2.current.kind = .eof
      ∧ (ofCursor c).parse.problems = (ofCursor c).statements.2.problems
      ∧ (Cursor.ofText text).defectsIn 0 taken
          ++ (ofCursor c).parse.problems.filterMap Problem.defect?
        = (Cursor.ofText text).drain.2.defects := by
  refine ⟨fun w h => ⟨(h.tracks used).exists_standsOn, (h.tracks used).pending_eq_nil⟩,
    Reached.start.statements, current_statements _, problems_parse_ofCursor used,
    defects_parse_ofCursor used⟩

/-- A cursor that still holds the defect of a string handed out before: it is reported at once. -/
theorem windows_follow_stream_of_kept_defect :
    Used "x \"a" 2 0 (Cursor.ofText "x \"a").next.2.next.2
      ∧ Reached (Cursor.ofText "x \"a").next.2.next.2
          (ofCursor (Cursor.ofText "x \"a").next.2.next.2)
      ∧ (∃ i, 2 ≤ i ∧ StandsOn (Cursor.ofText "x \"a") 0 i
          (ofCursor (Cursor.ofText "x \"a").next.2.next.2))
      ∧ (Cursor.ofText "x \"a").defectsIn 0 0
          ++ (ofCursor (Cursor.ofText "x \"a").next.2.next.2).parse.problems.filterMap
            Problem.defect?
        = (Cursor.ofText "x \"a").drain.2.defects := by
  have used : Used "x \"a" 2 0 (Cursor.ofText "x \"a").next.2.next.2 := .next (.next .fresh)
  obtain ⟨stands, -, -, -, all⟩ := windows_follow_stream used
  exact ⟨used, .start, (stands _ .start).1, all⟩

end Window

end Scriptlet
