import Mathlib.Logic.Function.Iterate
import Mathlib.Order.Bounds.Defs
import Scriptlet.Proofs.Parse.Following

/-!
# Where recovery stops

Recovery is nothing but moving on, as long as the window is at no boundary (`recover_eq_iterate`).
Each move goes to the next number (`Shows.iterate_advance`), and whether there is a boundary can be
seen from the tokens with this number and the next one (`Cursor.EndsAt`). So recovery stops at the
least number with a boundary, and brings along the defects of the tokens it has moved onto.

A window that has moved past the end of its source stands on many numbers at once. There recovery
stays where it is. On any other token the number is the only one, since no two tokens of a text are
equal (`Tracks.shows_of_standsOn`).
-/

namespace Scriptlet

open Cursor (Used)

/-- A broken statement ends with token number `k`: at a terminator, at the end of the source, or
right in front of a keyword that begins a statement. -/
def Cursor.EndsAt (s : Cursor) (k : Nat) : Prop :=
  (s.tokenAt k).kind = .semicolon ∨ (s.tokenAt k).kind = .eof
    ∨ (s.tokenAt (k + 1)).kind = .letWord ∨ (s.tokenAt (k + 1)).kind = .returnWord

instance (s : Cursor) (k : Nat) : Decidable (s.EndsAt k) :=
  inferInstanceAs (Decidable (_ ∨ _ ∨ _ ∨ _))

namespace Window

variable {s : Cursor} {taken n i : Nat} {w : Window}

/-! ## Moving on again and again -/

/-- **Recovery moves on until it is at a boundary**, and comes by none before. -/
theorem recover_eq_iterate (w : Window) : ∃ m, w.recover = Window.advance^[m] w
    ∧ (Window.advance^[m] w).atBoundary = true
    ∧ ∀ k < m, ¬ (Window.advance^[k] w).atBoundary = true := by
  fun_induction Window.recover w with
  | case1 w boundary => exact ⟨0, rfl, boundary, fun k lt => absurd lt (Nat.not_lt_zero k)⟩
  | case2 w inside ih =>
    obtain ⟨m, same, boundary, before⟩ := ih
    refine ⟨m + 1, same, boundary, ?_⟩
    rintro (_ | k) lt
    · exact inside
    · exact before k (Nat.lt_of_succ_lt_succ lt)

theorem depth_iterate_advance (w : Window) (m : Nat) :
    (Window.advance^[m] w).depth = w.depth := by
  induction m with
  | zero => rfl
  | succ m ih => rw [Function.iterate_succ_apply', advance_depth, ih]

/-- Every move goes to the next number and reports the defects of the token it goes to. -/
theorem Shows.iterate_advance (h : Shows s.stop (s.items.drop i) w) (m : Nat) :
    Goes s.stop w (Window.advance^[m] w) ((s.defectsIn (i + 1) (i + m + 1)).map .defect)
      (s.items.drop (i + m)) := by
  induction m with
  | zero =>
    rw [Nat.add_zero, Cursor.defectsIn_self]
    exact h.goes
  | succ m ih =>
    rw [Function.iterate_succ_apply', ← Nat.add_assoc, Cursor.defectsIn_succ s (by omega),
      List.map_append]
    exact ih.trans ih.shows.advance_drop

/-! ## Boundaries by number -/

theorem Shows.atBoundary_iff_endsAt (h : Shows s.stop (s.items.drop i) w) :
    w.atBoundary = true ↔ s.EndsAt i := by
  simp only [atBoundary, h.current_eq_tokenAt, h.following_eq_tokenAt, Cursor.EndsAt,
    Bool.or_eq_true, decide_eq_true_eq, or_assoc]

/-- Recovery moves on to the least number with a boundary. -/
theorem Shows.exists_boundary (h : Shows s.stop (s.items.drop i) w) :
    ∃ j, IsLeast {k | i ≤ k ∧ s.EndsAt k} j ∧ w.recover = Window.advance^[j - i] w := by
  obtain ⟨m, same, boundary, before⟩ := w.recover_eq_iterate
  have ends : ∀ k, (Window.advance^[k] w).atBoundary = true ↔ s.EndsAt (i + k) :=
    fun k => (h.iterate_advance k).shows.atBoundary_iff_endsAt
  refine ⟨i + m, ⟨⟨Nat.le_add_right i m, (ends m).mp boundary⟩, ?_⟩, ?_⟩
  · rintro k ⟨le, isEnd⟩
    obtain ⟨d, rfl⟩ := Nat.exists_eq_add_of_le le
    have notBefore : ¬ d < m := fun lt => before d lt ((ends d).mpr isEnd)
    omega
  · rw [Nat.add_sub_cancel_left]
    exact same

/-! ## Windows reached -/

/-- Away from the end there is one number only that a window stands on. -/
theorem Tracks.shows_of_standsOn {text : String} (h : Tracks (.ofText text) taken n w)
    (here : StandsOn (.ofText text) taken i w) (notEnd : w.current.kind ≠ .eof) :
    n ≤ i ∧ Shows (Cursor.ofText text).stop ((Cursor.ofText text).items.drop i) w := by
  obtain ⟨j, le, shows, -⟩ := h
  have same : (Cursor.ofText text).tokenAt i = (Cursor.ofText text).tokenAt j := by
    rw [← here.current, shows.current_eq_tokenAt]
  rw [here.current] at notEnd
  obtain rfl := Cursor.tokenAt_inj same notEnd
  exact ⟨le, shows⟩

/--
**Recovery moves on to the least number with a boundary**, from any window that a reader comes by.
It reports the defects of the tokens it has moved onto, in their order, behind what was reported
before, and does nothing but move on, so the depth stays what it was.
-/
theorem recover_least_boundary {text : String} {c : Cursor} (used : Used text n taken c)
    (reached : Reached c w) (here : StandsOn (.ofText text) taken i w) :
    ∃ j, IsLeast {k | i ≤ k ∧ (Cursor.ofText text).EndsAt k} j
      ∧ StandsOn (.ofText text) taken j w.recover
      ∧ w.recover.problems
        = w.problems ++ ((Cursor.ofText text).defectsIn (i + 1) (j + 1)).map .defect
      ∧ w.recover.depth = w.depth
      ∧ w.recover = Window.advance^[j - i] w := by
  by_cases atEnd : w.current.kind = .eof
  · have stays : w.recover = w := by
      rw [Window.recover, if_pos]
      simp [atBoundary, atEnd]
    rw [stays]
    refine ⟨i, ⟨⟨Nat.le_refl i, .inr (.inl ?_)⟩, fun k hk => hk.1⟩, here, ?_, rfl, ?_⟩
    · rw [← here.current]
      exact atEnd
    · rw [Cursor.defectsIn_self, List.map_nil, List.append_nil]
    · rw [Nat.sub_self]
      rfl
  · obtain ⟨le, shows⟩ := (reached.tracks used).shows_of_standsOn here atEnd
    obtain ⟨j, least, moved⟩ := shows.exists_boundary
    have ahead : i ≤ j := least.1.1
    have goes := shows.iterate_advance (j - i)
    rw [Nat.add_sub_cancel' ahead, ← moved] at goes
    have before : taken ≤ i + 1 := Nat.le_succ_of_le (Nat.le_trans used.le le)
    refine ⟨j, least, goes.shows.standsOn ?_, goes.problems_eq, ?_, moved⟩
    · rw [goes.problems_eq, List.filterMap_append, Problem.filterMap_defect?, here.reported,
        Cursor.defectsIn_append _ before (Nat.succ_le_succ ahead)]
    · rw [moved, depth_iterate_advance]

/-- Behind `let` no boundary comes before the end of the source, and the string on the way there has
no closing quote. -/
theorem recover_least_boundary_of_brokenBinding :
    let s := Cursor.ofText "let 5 @ \"a"
    let w := (ofCursor s).report (.wrongKind .identifier (s.tokenAt 1))
    Used "let 5 @ \"a" 0 0 s ∧ Reached s w ∧ StandsOn s 0 0 w
      ∧ IsLeast {k | 0 ≤ k ∧ s.EndsAt k} 4
      ∧ w.recover.problems = w.problems ++ [.defect (.unclosedString ⟨8, 2⟩)]
      ∧ w.recover = Window.advance^[4] w := by
  intro s w
  have used : Used "let 5 @ \"a" 0 0 s := .fresh
  have step : (ofCursor s).require .identifier = .error w := by
    have other : (ofCursor s).following.kind ≠ .identifier := by decide +kernel
    have following : (ofCursor s).following = s.tokenAt 1 := by decide +kernel
    rw [require, if_neg other, following]
  have reached : Reached s w := .require_error .start step
  have here : StandsOn s 0 0 w :=
    ((shows_ofCursor s).1.report _).shows.standsOn (by decide +kernel)
  have least : IsLeast {k | 0 ≤ k ∧ s.EndsAt k} 4 := by
    have before : ∀ k < 4, ¬ s.EndsAt k := by decide +kernel
    refine ⟨⟨Nat.zero_le 4, by decide +kernel⟩, fun k hk => ?_⟩
    exact Nat.le_of_not_lt fun lt => before k lt hk.2
  obtain ⟨j, least', -, problems, -, moved⟩ := recover_least_boundary used reached here
  obtain rfl : j = 4 := Nat.le_antisymm (least'.2 least.1) (least.2 least'.1)
  refine ⟨used, reached, here, least, ?_, moved⟩
  rw [problems]
  decide +kernel

end Window

end Scriptlet
