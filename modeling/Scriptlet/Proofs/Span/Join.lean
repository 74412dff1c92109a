import Scriptlet.Span.Basic

/-!
# The span around two

Spans are ordered by what they lie in (`Within`), and two that lie in each other are the same. The
span around two lies in a third exactly if both of them do (`within_around_iff`), so it is the least
that covers both, and it does not matter in which order spans are put together, or how often.

A join computes this span from sums that may have no place in 64 bits. That is all that can go wrong
(`join?_eq`): the span around two ends where one of them does, so it fits if they do, and it begins
in front of its end, so no difference is below zero.
-/

namespace Scriptlet.Span

variable {s t u : Span}

/-- The position right after the span has a place in 64 bits. -/
def Fits (s : Span) : Prop := s.stop < positionBound

instance (s : Span) : Decidable s.Fits := inferInstanceAs (Decidable (_ < _))

/-- The span lies in the other, an empty one with the place where it is. -/
structure Within (s t : Span) : Prop where
  offset : t.offset ≤ s.offset
  stop : s.stop ≤ t.stop

theorem Within.refl (s : Span) : s.Within s := ⟨Nat.le_refl _, Nat.le_refl _⟩

theorem Within.trans (h : s.Within t) (h' : t.Within u) : s.Within u :=
  ⟨Nat.le_trans h'.offset h.offset, Nat.le_trans h.stop h'.stop⟩

/-- Two spans that lie in each other are the same. -/
theorem Within.antisymm (h : s.Within t) (h' : t.Within s) : s = t := by
  have offset : s.offset = t.offset := Nat.le_antisymm h'.offset h.offset
  have stop : s.stop = t.stop := Nat.le_antisymm h.stop h'.stop
  obtain ⟨i, m⟩ := s
  obtain ⟨j, n⟩ := t
  simp only [Span.stop, Span.mk.injEq] at offset stop ⊢
  omega

/-! ## The span around two -/

/-- From where the first of two spans begins to where the last ends. -/
def around (s t : Span) : Span :=
  ⟨min s.offset t.offset, max s.stop t.stop - min s.offset t.offset⟩

/-- It begins in front of its end, so nothing is lost in the difference. -/
theorem offset_around_le (s t : Span) : min s.offset t.offset ≤ max s.stop t.stop :=
  calc min s.offset t.offset
    _ ≤ s.offset := Nat.min_le_left _ _
    _ ≤ s.stop := Nat.le_add_right _ _
    _ ≤ max s.stop t.stop := Nat.le_max_left _ _

@[simp] theorem stop_around (s t : Span) : (s.around t).stop = max s.stop t.stop :=
  Nat.add_sub_cancel' (offset_around_le s t)

theorem within_around_left (s t : Span) : s.Within (s.around t) := by
  refine ⟨Nat.min_le_left _ _, ?_⟩
  rw [stop_around]
  exact Nat.le_max_left _ _

theorem within_around_right (s t : Span) : t.Within (s.around t) := by
  refine ⟨Nat.min_le_right _ _, ?_⟩
  rw [stop_around]
  exact Nat.le_max_right _ _

/-- **The span around two is the least that covers both.** -/
theorem within_around_iff : (s.around t).Within u ↔ s.Within u ∧ t.Within u := by
  constructor
  · intro h
    exact ⟨(within_around_left s t).trans h, (within_around_right s t).trans h⟩
  · rintro ⟨hs, ht⟩
    refine ⟨Nat.le_min.mpr ⟨hs.offset, ht.offset⟩, ?_⟩
    rw [stop_around, Nat.max_le]
    exact ⟨hs.stop, ht.stop⟩

theorem around_comm (s t : Span) : s.around t = t.around s := by
  have below : ∀ s t : Span, (s.around t).Within (t.around s) := fun s t =>
    within_around_iff.mpr ⟨within_around_right t s, within_around_left t s⟩
  exact (below s t).antisymm (below t s)

theorem around_assoc (s t u : Span) : (s.around t).around u = s.around (t.around u) := by
  -- both lie in the spans that all three lie in
  have same : ∀ v, ((s.around t).around u).Within v ↔ (s.around (t.around u)).Within v := by
    intro v
    simp only [within_around_iff, and_assoc]
  exact ((same _).mpr (.refl _)).antisymm ((same _).mp (.refl _))

theorem around_self (s : Span) : s.around s = s :=
  (within_around_iff.mpr ⟨.refl s, .refl s⟩).antisymm (within_around_left s s)

/-- It ends where one of the two does. -/
theorem fits_around_iff : (s.around t).Fits ↔ s.Fits ∧ t.Fits := by
  rw [Fits, stop_around]
  exact Nat.max_lt

/-! ## Sums that fit -/

theorem stop?_eq (s : Span) : s.stop? = if s.Fits then .ok s.stop else .error .sum := rfl

/-- **A join is the span around two if both fit**, and an overflow of a sum if not. -/
theorem join?_eq (s t : Span) :
    s.join? t = if s.Fits ∧ t.Fits then .ok (s.around t) else .error .sum := by
  rw [join?, stop?_eq, stop?_eq]
  by_cases hs : s.Fits
  · rw [if_pos hs]
    by_cases ht : t.Fits
    · rw [if_pos ht, if_pos ⟨hs, ht⟩]
      exact if_pos (offset_around_le s t)
    · rw [if_neg ht, if_neg (mt And.right ht)]
      rfl
  · rw [if_neg hs, if_neg (mt And.left hs)]
    rfl

theorem join?_of_fits (hs : s.Fits) (ht : t.Fits) : s.join? t = .ok (s.around t) :=
  (join?_eq s t).trans (if_pos ⟨hs, ht⟩)

theorem join?_eq_error_iff : s.join? t = .error .sum ↔ ¬ s.Fits ∨ ¬ t.Fits := by
  rw [join?_eq, ← Decidable.not_and_iff_not_or_not]
  split
  · next both => exact iff_of_false nofun (not_not_intro both)
  · next notBoth => exact iff_of_true rfl notBoth

theorem join?_comm (s t : Span) : s.join? t = t.join? s := by
  rw [join?_eq, join?_eq, around_comm]
  simp only [and_comm]

/-- A span that does not fit is found out wherever it stands. -/
theorem join?_assoc (s t u : Span) : (s.join? t).bind (·.join? u) = (t.join? u).bind s.join? := by
  have left : (s.join? t).bind (·.join? u)
      = if s.Fits ∧ t.Fits ∧ u.Fits then .ok ((s.around t).around u) else .error .sum := by
    rw [join?_eq s t]
    by_cases both : s.Fits ∧ t.Fits
    · rw [if_pos both, Except.bind, join?_eq]
      simp only [fits_around_iff, and_assoc]
    · rw [if_neg both, if_neg fun all => both ⟨all.1, all.2.1⟩]
      rfl
  have right : (t.join? u).bind s.join?
      = if s.Fits ∧ t.Fits ∧ u.Fits then .ok (s.around (t.around u)) else .error .sum := by
    rw [join?_eq t u]
    by_cases both : t.Fits ∧ u.Fits
    · rw [if_pos both, Except.bind, join?_eq]
      simp only [fits_around_iff]
    · rw [if_neg both, if_neg fun all => both all.2]
      rfl
  rw [left, right, around_assoc]

theorem join?_self (h : s.Fits) : s.join? s = .ok s := by
  rw [join?_of_fits h h, around_self]

theorem after?_eq_error_iff : s.after? = .error .sum ↔ ¬ s.Fits := by
  rw [after?, stop?_eq]
  split
  · next fits => exact iff_of_false nofun (not_not_intro fits)
  · next not => exact iff_of_true rfl not

theorem render?_eq_error_iff : s.render? = .error .sum ↔ ¬ s.Fits := by
  rw [render?, stop?_eq]
  split
  · next fits => exact iff_of_false nofun (not_not_intro fits)
  · next not => exact iff_of_true rfl not

/--
**Joining spans whose ends fit in 64 bits never fails, and gives the least span that covers both**,
the end of which fits again. The order in which spans are joined does not matter, and a span joined
with itself stays as it is. A join fails with the overflow of a sum exactly if the end of one of the
two does not fit, and for these spans neither the place behind them nor their text can be had.
-/
theorem join?_least (s t : Span) :
    (s.Fits → t.Fits → ∃ r, s.join? t = .ok r ∧ r.Fits ∧ s.Within r ∧ t.Within r
        ∧ ∀ u : Span, s.Within u → t.Within u → r.Within u)
      ∧ s.join? t = t.join? s
      ∧ (∀ u, (s.join? t).bind (·.join? u) = (t.join? u).bind s.join?)
      ∧ (s.Fits → s.join? s = .ok s)
      ∧ (s.join? t = .error .sum ↔ ¬ s.Fits ∨ ¬ t.Fits)
      ∧ (s.after? = .error .sum ↔ ¬ s.Fits)
      ∧ (s.render? = .error .sum ↔ ¬ s.Fits) := by
  refine ⟨fun hs ht => ⟨s.around t, join?_of_fits hs ht, fits_around_iff.mpr ⟨hs, ht⟩,
    within_around_left s t, within_around_right s t, fun u hsu htu => ?_⟩, join?_comm s t,
    join?_assoc s t, join?_self, join?_eq_error_iff, after?_eq_error_iff, render?_eq_error_iff⟩
  exact within_around_iff.mpr ⟨hsu, htu⟩

/-- An empty span at the last position there is, and one in front of it. -/
theorem join?_least_at_top :
    (⟨positionBound - 1, 0⟩ : Span).Fits ∧ (⟨0, 5⟩ : Span).Fits
      ∧ ∃ r, (⟨positionBound - 1, 0⟩ : Span).join? ⟨0, 5⟩ = .ok r ∧ r.Fits
        ∧ (⟨positionBound - 1, 0⟩ : Span).Within r ∧ (⟨0, 5⟩ : Span).Within r
        ∧ ∀ u : Span, (⟨positionBound - 1, 0⟩ : Span).Within u → (⟨0, 5⟩ : Span).Within u →
          r.Within u := by
  have top : (⟨positionBound - 1, 0⟩ : Span).Fits := by decide
  have front : (⟨0, 5⟩ : Span).Fits := by decide
  exact ⟨top, front, (join?_least _ _).1 top front⟩

end Scriptlet.Span
