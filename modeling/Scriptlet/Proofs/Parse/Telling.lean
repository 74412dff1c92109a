import Scriptlet.Proofs.Parse.Pace

/-!
# What the events tell

The events of reading a source tell its result again. The tokens recognized are those of the source
and its end, each once: what was recognized and what is still to come make up the whole stream at
every moment (`Tells`), and when the statements have ended nothing is to come any more. The problems
reported are the ones handed back, and the statements that were complete make up the program.

`Tells` is kept by notes, reports and moves, so it is kept by every reader of statements
(`Tells.of_steps`) and by the loop over them.
-/

namespace Scriptlet

open Text (bytes)

/-! ## Kinds of events -/

namespace Event

/-- The token that was recognized, if the event tells of one. -/
def lexed? : Event → Option Token
  | lexed t => some t
  | _ => none

/-- The problem that was reported, if the event tells of one. -/
def reported? : Event → Option Problem
  | reported p => some p
  | _ => none

/-- The statement that was complete, if the event tells of one. -/
def accepted? : Event → Option Statement
  | accepted s => some s
  | _ => none

/-- Readers of statements tell neither of tokens nor of problems nor of complete statements when
they note something. -/
theorem none_of_ofStatement {e : Event} (own : e.ofStatement = true) :
    e.lexed? = none ∧ e.reported? = none ∧ e.accepted? = none := by
  cases e with
  | dispatched | built => exact ⟨rfl, rfl, rfl⟩
  | lexed | advanced | reported | accepted | finished => cases own

end Event

/-! ## Tokens still to be recognized -/

namespace Cursor

/-- The tokens that were not recognized yet, the end of the source among them until it is handed
out. -/
def unlexed (c : Cursor) : List Token :=
  if c.exhausted then [] else c.remaining ++ [.eof ⟨c.stop, 0⟩]

theorem unlexed_forget (c : Cursor) : c.forget.unlexed = c.unlexed := by
  unfold unlexed
  rw [remaining_eq, remaining_eq, items_forget, forget_stop]
  rfl

/-- Handing out a token takes it from those that were not recognized, if there are any. -/
theorem unlexed_next (c : Cursor) :
    c.unlexed = (if c.exhausted then [] else [c.next.1]) ++ c.next.2.unlexed := by
  cases hc : c.exhausted with
  | true =>
    rw [next_of_exhausted hc]
    rfl
  | false =>
    unfold unlexed
    rw [hc]
    by_cases h : c.next.1.kind = .eof
    · obtain ⟨token, ended⟩ := next_of_eof h
      rw [remaining_of_eof h, token, ended]
      rfl
    · rw [remaining_of_ne_eof h, (next_of_ne_eof hc h).1, stop_next]
      rfl

end Cursor

namespace Window

variable {c : Cursor} {w v : Window}

/-! ## Tokens and problems -/

/-- The window's events tell which tokens of the cursor were recognized, and which problems were
reported. -/
structure Tells (c : Cursor) (w : Window) : Prop where
  lexed : w.events.toList.filterMap Event.lexed? ++ w.cursor.unlexed = c.unlexed
  reported : w.events.toList.filterMap Event.reported? = w.problems

theorem Tells.note (h : Tells c w) {e : Event} (noToken : e.lexed? = none)
    (noProblem : e.reported? = none) : Tells c (w.note e) := by
  constructor
  · simpa [Window.note, noToken] using h.lexed
  · simpa [Window.note, noProblem] using h.reported

theorem Tells.report (h : Tells c w) (p : Problem) : Tells c (w.report p) := by
  constructor
  · simpa [Window.report, Event.lexed?, List.filterMap_cons] using h.lexed
  · simpa [Window.report, Event.reported?] using h.reported

/-- A move recognizes a token, unless the end was recognized before, and reports what was
pending. -/
theorem Tells.advance (h : Tells c w) : Tells c w.advance := by
  constructor
  · have moved : w.advance.events.toList.filterMap Event.lexed?
        = w.events.toList.filterMap Event.lexed?
          ++ if w.cursor.exhausted then [] else [w.cursor.next.1] := by
      rw [advance_events]
      split <;> simp [Event.lexed?, List.filterMap_map, List.filterMap_cons, Function.comp_def]
    have cursor : w.advance.cursor.unlexed = w.cursor.next.2.unlexed := by
      rw [advance_cursor]
      exact Cursor.unlexed_forget _
    rw [moved, cursor, List.append_assoc, ← Cursor.unlexed_next, h.lexed]
  · rw [advance_events, advance_problems, ← h.reported]
    split <;> simp [Event.reported?, List.filterMap_map, Function.comp_def]

theorem Tells.of_steps (h : Tells c w) (steps : Steps w v) : Tells c v := by
  induction steps with
  | refl => exact h
  | note _ own ih =>
    obtain ⟨noToken, noProblem, -⟩ := Event.none_of_ofStatement own
    exact ih.note noToken noProblem
  | report _ _ ih => exact ih.report _
  | advance _ _ ih => exact ih.advance

theorem Tells.statements (h : Tells c w) : Tells c w.statements.2 := by
  fun_induction Window.statements w with
  | case1 w _ => exact h
  | case2 w _ step _ ih => exact ih (h.of_steps (.statement w)).advance
  | case3 w _ step s _ later ih => exact ih ((h.of_steps (.statement w)).note rfl rfl).advance

/-- The statements that were complete so far. -/
def accepted (w : Window) : List Statement := w.events.toList.filterMap Event.accepted?

end Window

/-! ## Sources -/

namespace Parsed

/-- The tokens that were recognized, in this order. -/
def lexed (p : Parsed) : List Token := p.events.filterMap Event.lexed?

/-- The problems that were reported, in this order. -/
def reported (p : Parsed) : List Problem := p.events.filterMap Event.reported?

/-- The statements that were complete, in this order. -/
def accepted (p : Parsed) : List Statement := p.events.filterMap Event.accepted?

end Parsed

open Window

end Scriptlet
