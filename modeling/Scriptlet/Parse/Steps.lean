import Scriptlet.Parse.Statement

/-!
# What a statement is read by

`Steps w v` says that a reader comes from `w` to `v` by moves, notes and reports alone, with what all
of them have in common: it notes that a statement begins or an expression is complete and nothing
else, it reports no defects, and it moves on only while one of the two tokens is not the end. Every
reader below the loop over the statements goes by such steps (`Steps.statement`), from any window.

So what is kept by a note, a report and a move is kept by reading a statement, and no reader has to
be opened for it again. `Steps.moves` is the first use of that: reading a statement brings the end
of the source no further away.
-/

namespace Scriptlet

/-! ## Expressions -/

/-- What a token stands for where an expression is required. -/
def Token.operand (t : Token) : Except Problem Expr :=
  match t.kind with
  | .identifier => .ok (.ident t.literal)
  | .integer =>
    match Numeral.read t.literal with
    | .ok n => .ok (.int n)
    | .error fault => .error (.badInteger t.literal t.span fault)
  | _ => .error (.noExpression t)

/-- A token that is no value has a problem of its own, which is no defect. -/
theorem Token.isLexical_of_operand {t : Token} {p : Problem} (h : t.operand = .error p) :
    p.isLexical = false := by
  unfold Token.operand at h
  split at h
  · cases h
  · split at h
    · cases h
    · cases h
      rfl
  · cases h
    rfl

namespace Window

theorem operand_cases (w : Window) :
    (∃ e, w.current.operand = .ok e ∧ w.operand = (some e, w.note (.built e)))
      ∨ ∃ p, w.current.operand = .error p
        ∧ (w.operand = (none, w.report p) ∨ p = .noExpression w.current ∧ w.operand = (none, w)) := by
  unfold Token.operand
  split
  · next hk =>
    refine .inl ⟨_, rfl, ?_⟩
    simp only [Window.operand, hk]
  · next hk =>
    cases hread : Numeral.read w.current.literal with
    | ok n =>
      refine .inl ⟨_, rfl, ?_⟩
      simp only [Window.operand, hk, hread]
    | error fault =>
      refine .inr ⟨_, rfl, .inl ?_⟩
      simp only [Window.operand, hk, hread]
  · next noName noInteger =>
    refine .inr ⟨_, rfl, .inr ⟨rfl, ?_⟩⟩
    unfold Window.operand
    split
    · next hk => exact absurd hk noName
    · next hk => exact absurd hk noInteger
    · rfl

/-- The depth is back where it was behind an expression. -/
theorem expression_cases (w : Window) (allowed : w.depth < maxDepth) :
    (∃ e, w.current.operand = .ok e ∧ w.expression = (some e, w.note (.built e)))
      ∨ ∃ p, w.current.operand = .error p
        ∧ (w.expression = (none, w.report p)
          ∨ p = .noExpression w.current ∧ w.expression = (none, w)) := by
  unfold Window.expression
  rw [if_neg (Nat.not_le_of_lt allowed)]
  rcases operand_cases { w with depth := w.depth + 1 } with
    ⟨e, operand, built⟩ | ⟨p, operand, built | ⟨rfl, built⟩⟩
  · refine .inl ⟨e, operand, ?_⟩
    rw [built]
    rfl
  · refine .inr ⟨p, operand, .inl ?_⟩
    rw [built]
    rfl
  · refine .inr ⟨_, operand, .inr ⟨rfl, ?_⟩⟩
    rw [built]
    rfl

end Window

/-! ## Steps -/

/-- Whether this is noted while a statement is read. -/
def Event.ofStatement : Event → Bool
  | .dispatched _ | .built _ => true
  | _ => false

namespace Window

/-- From `w` a reader of statements comes to `v`. -/
inductive Steps (w : Window) : Window → Prop where
  | refl : Steps w w
  | note {v : Window} {e : Event} (h : Steps w v) (own : e.ofStatement = true) : Steps w (v.note e)
  | report {v : Window} {p : Problem} (h : Steps w v) (own : p.isLexical = false) :
    Steps w (v.report p)
  | advance {v : Window} (h : Steps w v)
    (ahead : v.current.kind ≠ .eof ∨ v.following.kind ≠ .eof) : Steps w v.advance

namespace Steps

variable {w v u : Window}

theorem trans (first : Steps w v) (second : Steps v u) : Steps w u := by
  induction second with
  | refl => exact first
  | note _ own ih => exact ih.note own
  | report _ own ih => exact ih.report own
  | advance _ ahead ih => exact ih.advance ahead

/-- Such steps are a sequence of moves. -/
theorem moves (steps : Steps w v) : Moves w v := by
  induction steps with
  | refl => exact .refl w
  | note _ _ ih => exact ih.trans (.note _ _)
  | report _ _ ih => exact ih.trans (.report _ _)
  | advance _ _ ih => exact ih.trans (.advance _)

/-! ## Parts of a statement -/

theorem of_require_ok {kind : Kind} (step : w.require kind = .ok v) (notEnd : kind ≠ .eof) :
    Steps w v ∧ v.current.kind = kind := by
  unfold require at step
  split at step
  · next hk =>
    cases step
    exact ⟨refl.advance (.inr (by rw [hk]; exact notEnd)), hk⟩
  · cases step

theorem of_require_error {kind : Kind} (step : w.require kind = .error v) : Steps w v := by
  unfold require at step
  split at step
  · cases step
  · cases step
    exact refl.report rfl

theorem takeTerminator (w : Window) : Steps w w.takeTerminator := by
  unfold Window.takeTerminator
  split
  · next hk => exact refl.advance (.inr (by rw [hk]; nofun))
  · exact refl

theorem recover (w : Window) : Steps w w.recover := by
  fun_induction Window.recover w with
  | case1 w _ => exact refl
  | case2 w inside ih =>
    exact (refl.advance (.inl (current_ne_eof_of_atBoundary inside))).trans ih

theorem expression (w : Window) : Steps w w.expression.2 := by
  by_cases allowed : w.depth < maxDepth
  · rcases w.expression_cases allowed with
      ⟨e, -, built⟩ | ⟨p, operand, built | ⟨-, built⟩⟩
    · rw [built]
      exact refl.note rfl
    · rw [built]
      exact refl.report (Token.isLexical_of_operand operand)
    · rw [built]
      exact refl
  · unfold Window.expression
    rw [if_pos (Nat.le_of_not_lt allowed)]
    exact refl.report rfl

theorem requiredExpression (w : Window) : Steps w w.requiredExpression.2 := by
  unfold Window.requiredExpression
  dsimp only
  split
  · exact (expression w).report rfl
  · exact expression w

theorem value (w : Window) : Steps w w.value.2 := by
  have built := requiredExpression w
  unfold Window.value
  split
  · next same => rw [same] at built; exact built
  · next same => rw [same] at built; exact built.trans (recover _)

/-! ## Statements -/

theorem binding (w : Window) : Steps w w.binding.2 := by
  unfold Window.binding
  split
  · next step => exact (of_require_error step).trans (recover _)
  · next named step =>
    refine (of_require_ok step nofun).1.trans ?_
    split
    · next step => exact (of_require_error step).trans (recover _)
    · next signed step =>
      -- the sign is the current token, so there is something to move away from
      obtain ⟨sign, hk⟩ := of_require_ok step nofun
      have header := sign.advance (.inl (by rw [hk]; nofun))
      have valued := header.trans (value _)
      split
      · next same => rw [same] at valued; exact valued
      · next same => rw [same] at valued; exact valued.trans (takeTerminator _)

theorem returning (w : Window) : Steps w w.returning.2 := by
  unfold Window.returning
  split
  · exact refl
  · next more =>
    have moved : Steps w w.advance := refl.advance (.inr more)
    split
    · exact moved
    · have valued := moved.trans (value _)
      split
      · next same => rw [same] at valued; exact valued
      · next same => rw [same] at valued; exact valued.trans (takeTerminator _)

theorem bare (w : Window) : Steps w w.bare.2 := (requiredExpression w).trans (takeTerminator _)

/-- **A statement is read by such steps**, whatever the window. -/
theorem statement (w : Window) : Steps w w.statement.2 := by
  refine (refl.note (e := .dispatched w.current) rfl).trans ?_
  unfold Window.statement
  dsimp only
  split
  · exact binding _
  · exact returning _
  · exact bare _

end Steps

end Window

end Scriptlet
