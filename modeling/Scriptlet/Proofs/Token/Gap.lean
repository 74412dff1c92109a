import Scriptlet.Token.Gap

/-!
# What a gap consists of

`IsGap rest gap` says what may stand between two tokens: blanks and comments, in front of the bytes
`rest`. What `Gap.length` counts is such a gap (`IsGap.length_append`), and behind it no further one
begins (`exists_gap`).

A comment has no line end in it and is closed by one, or by the end of the source. The line end is
not part of the comment, so whether a comment is closed depends on what follows it, and the relation
carries `rest`.
-/

namespace Scriptlet

/-- Blanks and comments in front of `rest`. -/
inductive IsGap (rest : List UInt8) : List UInt8 → Prop where
  | nil : IsGap rest []
  | blank {b : UInt8} {gap : List UInt8} (isBlank : Gap.isBlank b = true)
      (more : IsGap rest gap) : IsGap rest (b :: gap)
  | comment {text gap : List UInt8} (inLine : ∀ b ∈ text, Gap.isLineEnd b = false)
      (closed : ∀ b ∈ (gap ++ rest).head?, Gap.isLineEnd b = true) (more : IsGap rest gap) :
      IsGap rest (Gap.slash :: Gap.slash :: (text ++ gap))

namespace Gap

/-! ## The steps of counting -/

/-- A blank is counted. -/
theorem length_blank {b : UInt8} (h : isBlank b = true) (rest : List UInt8) :
    length (b :: rest) = length rest + 1 := by
  simp only [length, lengthFrom, Bool.false_eq_true, if_false, if_pos h]

/-- A token stops the counting at once. -/
theorem length_of_token {b : UInt8} {rest : List UInt8} (hb : isBlank b = false)
    (hs : b = slash → rest.head? ≠ some slash) : length (b :: rest) = 0 := by
  simp only [length, lengthFrom, Bool.false_eq_true, if_false, hb]
  rw [if_neg fun h => hs h.1 h.2]

/-- Two slashes begin a comment. -/
theorem length_comment (source : List UInt8) :
    length (slash :: slash :: source) = lengthFrom true source + 2 := by
  have hblank : isBlank slash = false := by decide
  have hline : isLineEnd slash = false := by decide
  simp only [length, lengthFrom, Bool.false_eq_true, if_false, hblank, if_true, hline,
    List.head?_cons, and_self, Bool.not_false]

theorem isBlank_of_isLineEnd {b : UInt8} (h : isLineEnd b = true) : isBlank b = true := by
  simp only [isLineEnd, isBlank, Bool.or_eq_true] at h ⊢
  rcases h with h | h
  · exact .inl (.inr h)
  · exact .inr h

/-- Inside a comment all bytes of its line are counted. -/
theorem lengthFrom_line {text : List UInt8} (inLine : ∀ b ∈ text, isLineEnd b = false)
    (rest : List UInt8) : lengthFrom true (text ++ rest) = text.length + lengthFrom true rest := by
  induction text with
  | nil => exact (Nat.zero_add _).symm
  | cons b text ih =>
    obtain ⟨goesOn, later⟩ := List.forall_mem_cons.mp inLine
    rw [List.cons_append, lengthFrom, if_pos rfl, goesOn, Bool.not_false, ih later,
      List.length_cons]
    omega

/-- Inside a comment all bytes up to the next line end are counted, and then it goes on behind the
comment. -/
theorem lengthFrom_comment {text rest : List UInt8} (inLine : ∀ b ∈ text, isLineEnd b = false)
    (closed : ∀ b ∈ rest.head?, isLineEnd b = true) :
    lengthFrom true (text ++ rest) = text.length + length rest := by
  rw [lengthFrom_line inLine]
  cases rest with
  | nil => rfl
  | cons b rest =>
    -- the line end is not in the comment, but it is a blank, so it is counted all the same
    have closing := closed b rfl
    rw [length_blank (isBlank_of_isLineEnd closing)]
    simp only [lengthFrom, if_true, closing, Bool.not_true, length]

end Gap

/-! ## What is counted -/

/-- **A gap is counted to its end**, and what follows it is counted on. -/
theorem IsGap.length_append {rest gap : List UInt8} (h : IsGap rest gap) :
    Gap.length (gap ++ rest) = gap.length + Gap.length rest := by
  induction h with
  | nil => rw [List.nil_append, List.length_nil, Nat.zero_add]
  | blank isBlank more ih =>
    rw [List.cons_append, Gap.length_blank isBlank, ih, List.length_cons]
    omega
  | @comment text gap inLine closed more ih =>
    rw [List.cons_append, List.cons_append, List.append_assoc, Gap.length_comment,
      Gap.lengthFrom_comment inLine closed, ih]
    simp only [List.length_cons, List.length_append]
    omega

namespace Gap

/-- A comment goes on to the next line end. -/
theorem exists_comment : ∀ source : List UInt8, ∃ text rest, source = text ++ rest
    ∧ (∀ b ∈ text, isLineEnd b = false) ∧ (∀ b ∈ rest.head?, isLineEnd b = true)
  | [] => ⟨[], [], rfl, by simp, by simp⟩
  | b :: source => by
    by_cases hb : isLineEnd b = true
    · exact ⟨[], b :: source, rfl, by simp, by simp [hb]⟩
    · obtain ⟨text, rest, rfl, inLine, closed⟩ := exists_comment source
      rw [Bool.not_eq_true] at hb
      exact ⟨b :: text, rest, rfl, List.forall_mem_cons.mpr ⟨hb, inLine⟩, closed⟩

/-- A source begins with a gap, and behind it with a token or not at all. -/
theorem exists_gap (source : List UInt8) : ∃ gap rest, source = gap ++ rest ∧ IsGap rest gap
    ∧ length rest = 0 := by
  match source with
  | [] => exact ⟨[], [], rfl, .nil, rfl⟩
  | b :: source =>
    by_cases hb : isBlank b = true
    · obtain ⟨gap, rest, rfl, isGap, hrest⟩ := exists_gap source
      exact ⟨b :: gap, rest, rfl, .blank hb isGap, hrest⟩
    rw [Bool.not_eq_true] at hb
    by_cases hs : b = slash ∧ source.head? = some slash
    · obtain ⟨tail, htail⟩ := List.head?_eq_some_iff.mp hs.2
      obtain ⟨text, behind, hbehind, inLine, closed⟩ := exists_comment tail
      -- a comment is not cut off byte by byte, so this is not a recursion on the list
      have shorter : behind.length < (b :: source).length := by
        rw [htail, hbehind, List.length_cons, List.length_cons, List.length_append]
        omega
      obtain ⟨gap, rest, rfl, isGap, hrest⟩ := exists_gap behind
      obtain rfl := hs.1
      subst htail hbehind
      exact ⟨slash :: slash :: (text ++ gap), rest, by simp, .comment inLine closed isGap, hrest⟩
    · exact ⟨[], b :: source, rfl, .nil, length_of_token hb fun h h' => hs ⟨h, h'⟩⟩
termination_by source.length
decreasing_by
  · exact Nat.lt_succ_self _
  · exact shorter

end Gap

end Scriptlet
