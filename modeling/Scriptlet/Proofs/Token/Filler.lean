import Scriptlet.Proofs.Token.Gap

/-!
# Gaps that may stand anywhere

A comment without a line end at its end takes in whatever is put behind it. A filler has no such
comment: it is a gap in front of any bytes (`IsFiller.isGap_append`), and every gap in front of a
token is one (`IsGap.isFiller`). Only the gap at the end of a source need not be, but a filler behind
it makes a gap all the same (`IsGap.append_filler`).
-/

namespace Scriptlet

/-- Blanks and comments, each comment with the line end that closes it. -/
inductive IsFiller : List UInt8 → Prop where
  | nil : IsFiller []
  | blank {b : UInt8} {text : List UInt8} (isBlank : Gap.isBlank b = true)
      (more : IsFiller text) : IsFiller (b :: text)
  | comment {text later : List UInt8} {b : UInt8}
      (inLine : ∀ d ∈ text, Gap.isLineEnd d = false) (closing : Gap.isLineEnd b = true)
      (more : IsFiller later) :
      IsFiller (Gap.slash :: Gap.slash :: (text ++ b :: later))

namespace Gap

/-- No gap begins in front of a lexeme, whatever is put behind that, provided that it begins like
what was there or with no slash. -/
theorem length_eq_zero_of_append {covered rest rest' : List UInt8} (nonempty : covered ≠ [])
    (like : rest'.head? = rest.head? ∨ rest'.head? ≠ some slash)
    (h : length (covered ++ rest) = 0) : length (covered ++ rest') = 0 := by
  cases covered with
  | nil => exact absurd rfl nonempty
  | cons b covered =>
    have noBlank : isBlank b = false := by
      rw [← Bool.not_eq_true]
      intro hb
      rw [List.cons_append, length_blank hb] at h
      cases h
    have noSlash : b = slash → (covered ++ rest).head? ≠ some slash := by
      rintro rfl hs
      obtain ⟨tail, htail⟩ := List.head?_eq_some_iff.mp hs
      rw [List.cons_append, htail, length_comment] at h
      cases h
    refine length_of_token noBlank fun hb => ?_
    cases covered with
    | nil =>
      rcases like with same | other
      · exact fun hs => noSlash hb (same.symm.trans hs)
      · exact other
    | cons d covered => exact noSlash hb

end Gap

/-! ## Fillers -/

namespace IsFiller

variable {text later : List UInt8}

theorem append (h : IsFiller text) (h' : IsFiller later) : IsFiller (text ++ later) := by
  induction h with
  | nil => exact h'
  | blank isBlank more ih => exact .blank isBlank ih
  | comment inLine closing more ih =>
    rw [List.cons_append, List.cons_append, List.append_assoc, List.cons_append]
    exact .comment inLine closing ih

/-- A filler is a gap whatever follows it. -/
theorem isGap_append {rest gap : List UInt8} (h : IsFiller text) (h' : IsGap rest gap) :
    IsGap rest (text ++ gap) := by
  induction h with
  | nil => exact h'
  | blank isBlank more ih => exact .blank isBlank ih
  | comment inLine closing more ih =>
    rw [List.cons_append, List.cons_append, List.append_assoc, List.cons_append]
    refine .comment inLine ?_ (.blank (Gap.isBlank_of_isLineEnd closing) ih)
    rintro _ ⟨⟩
    exact closing

theorem isGap (h : IsFiller text) (rest : List UInt8) : IsGap rest text := by
  have alone := h.isGap_append (IsGap.nil : IsGap rest [])
  rwa [List.append_nil] at alone

/-- A line end in front of a filler is none of its comments. -/
theorem tail {b : UInt8} (closing : Gap.isLineEnd b = true) (h : IsFiller (b :: text)) :
    IsFiller text := by
  cases h with
  | blank isBlank more => exact more
  | comment => cases closing

/-- A comment takes in a filler up to its first line end, and what is left is a filler. -/
theorem exists_line (h : IsFiller text) : ∃ line rest, text = line ++ rest
    ∧ (∀ b ∈ line, Gap.isLineEnd b = false) ∧ (∀ b ∈ rest.head?, Gap.isLineEnd b = true)
    ∧ IsFiller rest := by
  induction h with
  | nil => exact ⟨[], [], rfl, by simp, by simp, .nil⟩
  | @blank b text isBlank more ih =>
    cases hb : Gap.isLineEnd b with
    | true => exact ⟨[], b :: text, rfl, by simp, by simp [hb], .blank isBlank more⟩
    | false =>
      obtain ⟨line, rest, rfl, inLine, closed, filler⟩ := ih
      refine ⟨b :: line, rest, rfl, ?_, closed, filler⟩
      exact List.forall_mem_cons.mpr ⟨hb, inLine⟩
  | @comment text later b inLine closing more ih =>
    have noLineEnd : Gap.isLineEnd Gap.slash = false := rfl
    refine ⟨Gap.slash :: Gap.slash :: text, b :: later, rfl, ?_, by simp [closing],
      .blank (Gap.isBlank_of_isLineEnd closing) more⟩
    exact List.forall_mem_cons.mpr ⟨noLineEnd, List.forall_mem_cons.mpr ⟨noLineEnd, inLine⟩⟩

end IsFiller

namespace IsGap

/-- A gap in front of anything but a line end is a filler. -/
theorem isFiller {b : UInt8} {rest gap : List UInt8} (h : IsGap (b :: rest) gap)
    (hb : Gap.isLineEnd b = false) : IsFiller gap := by
  induction h with
  | nil => exact .nil
  | blank isBlank more ih => exact .blank isBlank ih
  | @comment text gap inLine closed more ih =>
    cases gap with
    | nil => exact absurd (closed b rfl) (by rw [hb]; exact Bool.false_ne_true)
    | cons d gap =>
      have closing := closed d rfl
      exact .comment inLine closing (ih.tail closing)

/-- The gap at the end of a source may end in an open comment, which takes in a part of what is put
behind it. -/
theorem append_filler {gap text : List UInt8} (h : IsGap [] gap) (filler : IsFiller text) :
    IsGap [] (gap ++ text) := by
  induction h with
  | nil => exact filler.isGap []
  | blank isBlank more ih => exact .blank isBlank ih
  | @comment comment gap inLine closed more ih =>
    rw [List.cons_append, List.cons_append, List.append_assoc]
    cases gap with
    | nil =>
      obtain ⟨line, rest, rfl, inLine', closed', filler'⟩ := filler.exists_line
      rw [List.nil_append, ← List.append_assoc]
      refine .comment (List.forall_mem_append.mpr ⟨inLine, inLine'⟩) ?_ (filler'.isGap [])
      rw [List.append_nil]
      exact closed'
    | cons d gap => exact .comment inLine closed ih

end IsGap

end Scriptlet
