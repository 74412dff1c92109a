import Scriptlet.Proofs.Token.Gap
import Scriptlet.Proofs.Token.Recognition

/-!
# Gaps taken off in stretches

A stretch is a run of blanks or a comment. `Gap.stretches?` takes stretches off the front of a
source as long as there is one. A stretch of no bytes would be found again for ever, so that is
where it gives up. No stretch is empty (`IsStretch.ne_nil`), so it never does (`exists_stretches`),
and what it takes off is what `Gap.length` counts.

A stretch leaves the byte that ends it to the next one, so the blanks behind a comment begin with
its line end. That nothing longer can be taken off does not hang on where comments end: whoever cuts
a comment short goes on inside of it, and there `Gap.lengthFrom` counts every byte
(`length_flatten_le`).
-/

namespace Scriptlet

open Lexeme (LongestRun longestRun_drop)

/-- A run of blanks, or a comment that may stop anywhere in its line. -/
inductive IsStretch : List UInt8 → Prop where
  | blanks {run : List UInt8} (nonempty : run ≠ []) (inside : ∀ b ∈ run, Gap.isBlank b = true) :
      IsStretch run
  | comment {text : List UInt8} (inLine : ∀ b ∈ text, Gap.isLineEnd b = false) :
      IsStretch (Gap.slash :: Gap.slash :: text)

theorem IsStretch.ne_nil {stretch : List UInt8} (h : IsStretch stretch) : stretch ≠ [] := by
  cases h with
  | blanks nonempty => exact nonempty
  | comment => exact List.cons_ne_nil _ _

/-- Blanks in front of a gap belong to it. -/
theorem IsGap.blanks {rest gap run : List UInt8} (inside : ∀ b ∈ run, Gap.isBlank b = true)
    (h : IsGap rest gap) : IsGap rest (run ++ gap) := by
  induction run with
  | nil => exact h
  | cons b run ih =>
    obtain ⟨first, later⟩ := List.forall_mem_cons.mp inside
    exact .blank first (ih later)

namespace Gap

/-! ## One stretch -/

/-- The blanks that a source begins with, and what is behind them. -/
def blanks? (source : List UInt8) : Option (List UInt8 × List UInt8) :=
  let run := source.takeWhile isBlank
  if run = [] then none else some (run, source.drop run.length)

/-- The comment that a source begins with, and what is behind it. -/
def comment? (source : List UInt8) : Option (List UInt8 × List UInt8) :=
  if [slash, slash].isPrefixOf source then
    let line := source.drop 2
    let text := line.takeWhile (!isLineEnd ·)
    some (slash :: slash :: text, line.drop text.length)
  else none

/-- The stretch that a source begins with, and what is behind it. -/
def stretch? (source : List UInt8) : Option (List UInt8 × List UInt8) :=
  (blanks? source).or (comment? source)

theorem blanks?_cases (source : List UInt8) :
    (blanks? source = none ∧ ∀ b ∈ source.head?, isBlank b = false)
      ∨ ∃ run rest, blanks? source = some (run, rest) ∧ source = run ++ rest ∧ run ≠ []
        ∧ LongestRun isBlank run rest := by
  obtain ⟨same, run⟩ := longestRun_drop isBlank source
  by_cases none : source.takeWhile isBlank = []
  · rw [none] at run
    exact .inl ⟨if_pos none, run.outside⟩
  · exact .inr ⟨_, _, if_neg none, same, none, run⟩

theorem comment?_cases (source : List UInt8) :
    (comment? source = none ∧ ¬ [slash, slash] <+: source)
      ∨ ∃ text rest, comment? source = some (slash :: slash :: text, rest)
        ∧ source = slash :: slash :: (text ++ rest) ∧ LongestRun (!isLineEnd ·) text rest := by
  by_cases opening : [slash, slash] <+: source
  · obtain ⟨line, rfl⟩ := opening
    obtain ⟨same, run⟩ := longestRun_drop (!isLineEnd ·) line
    refine .inr ⟨_, _, rfl, ?_, run⟩
    exact congrArg ([slash, slash] ++ ·) same
  · exact .inl ⟨if_neg fun h => opening (List.isPrefixOf_iff_prefix.mp h), opening⟩

/-- Nothing is counted where a source begins with no stretch. -/
theorem length_eq_zero {source : List UInt8} (noBlank : ∀ b ∈ source.head?, isBlank b = false)
    (noComment : ¬ [slash, slash] <+: source) : length source = 0 := by
  cases source with
  | nil => rfl
  | cons b source =>
    refine length_of_token (noBlank b rfl) ?_
    rintro rfl hs
    obtain ⟨line, rfl⟩ := List.head?_eq_some_iff.mp hs
    exact noComment (List.prefix_append [slash, slash] line)

/-- A source begins with no stretch, or with one that may stand in front of any gap there. -/
theorem stretch?_cases (source : List UInt8) :
    (stretch? source = none ∧ (∀ b ∈ source.head?, isBlank b = false)
        ∧ ¬ [slash, slash] <+: source)
      ∨ ∃ stretch rest, stretch? source = some (stretch, rest) ∧ source = stretch ++ rest
        ∧ IsStretch stretch
        ∧ ∀ gap behind, rest = gap ++ behind → IsGap behind gap → IsGap behind (stretch ++ gap) := by
  rcases blanks?_cases source with ⟨none, noBlank⟩ | ⟨run, rest, found, same, nonempty, longest⟩
  · rcases comment?_cases source with ⟨none', noComment⟩ | ⟨text, rest, found, same, longest⟩
    · exact .inl ⟨by rw [stretch?, none, none', Option.none_or], noBlank, noComment⟩
    · have inLine : ∀ b ∈ text, isLineEnd b = false :=
        fun b hb => by simpa using longest.inside b hb
      refine .inr ⟨_, rest, by rw [stretch?, none, Option.none_or, found], same,
        .comment inLine, ?_⟩
      rintro gap behind rfl isGap
      exact .comment inLine (fun b hb => by simpa using longest.outside b hb) isGap
  · refine .inr ⟨run, rest, by rw [stretch?, found, Option.some_or], same,
      .blanks nonempty longest.inside, ?_⟩
    rintro gap behind - isGap
    exact isGap.blanks longest.inside

/-! ## All stretches -/

/-- Takes stretches off the front of a source until there is none, and gives up where one has no
bytes. -/
def stretches? (source : List UInt8) : Option (List (List UInt8) × List UInt8) :=
  match stretch? source with
  | none => some ([], source)
  | some (stretch, rest) =>
    if rest.length < source.length then
      (stretches? rest).map fun later => (stretch :: later.1, later.2)
    else none
termination_by source.length

/-- **Taking stretches off never gives up**, and they are a gap that is followed by no further
stretch. -/
theorem exists_stretches (source : List UInt8) : ∃ stretches rest,
    stretches? source = some (stretches, rest) ∧ source = stretches.flatten ++ rest
      ∧ (∀ s ∈ stretches, IsStretch s) ∧ IsGap rest stretches.flatten
      ∧ stretches? rest = some ([], rest)
      ∧ (∀ b ∈ rest.head?, isBlank b = false) ∧ ¬ [slash, slash] <+: rest := by
  rcases stretch?_cases source with
    ⟨none, noBlank, noComment⟩ | ⟨stretch, rest, found, same, isStretch, joins⟩
  · have done : stretches? source = some ([], source) := by rw [stretches?, none]
    exact ⟨[], source, done, rfl, by simp, .nil, done, noBlank, noComment⟩
  · have shorter : rest.length < source.length := by
      have := List.length_pos_iff.mpr isStretch.ne_nil
      rw [same, List.length_append]
      omega
    obtain ⟨later, last, read, parts, all, isGap, ends⟩ := exists_stretches rest
    refine ⟨stretch :: later, last, ?_, ?_, List.forall_mem_cons.mpr ⟨isStretch, all⟩, ?_, ends⟩
    · rw [stretches?, found]
      simp only [if_pos shorter, read, Option.map_some]
    · rw [List.flatten_cons, List.append_assoc, ← parts, same]
    · rw [List.flatten_cons]
      exact joins _ _ parts isGap
termination_by source.length

/-! ## The longest prefix -/

/-- In either state all bytes of a run of blanks are counted. -/
theorem exists_lengthFrom_blanks {run : List UInt8} (inside : ∀ b ∈ run, isBlank b = true) :
    ∀ inComment : Bool, ∃ state, ∀ rest,
      lengthFrom inComment (run ++ rest) = run.length + lengthFrom state rest := by
  induction run with
  | nil => exact fun inComment => ⟨inComment, fun rest => (Nat.zero_add _).symm⟩
  | cons b run ih =>
    obtain ⟨first, later⟩ := List.forall_mem_cons.mp inside
    intro inComment
    -- a line end closes a comment, and no blank opens one
    obtain ⟨state, same⟩ := ih later (inComment && !isLineEnd b)
    refine ⟨state, fun rest => ?_⟩
    have step : lengthFrom inComment (b :: (run ++ rest))
        = lengthFrom (inComment && !isLineEnd b) (run ++ rest) + 1 := by
      cases inComment with
      | true => simp only [lengthFrom, if_true, Bool.true_and]
      | false => simp only [lengthFrom, Bool.false_eq_true, if_false, if_pos first, Bool.false_and]
    rw [List.cons_append, step, same, List.length_cons]
    omega

/-- In either state all bytes of a stretch are counted. -/
theorem exists_lengthFrom_stretch {stretch : List UInt8} (h : IsStretch stretch)
    (inComment : Bool) : ∃ state, ∀ rest,
      lengthFrom inComment (stretch ++ rest) = stretch.length + lengthFrom state rest := by
  cases h with
  | blanks _ inside => exact exists_lengthFrom_blanks inside inComment
  | @comment text inLine =>
    refine ⟨true, fun rest => ?_⟩
    cases inComment with
    | false =>
      rw [List.cons_append, List.cons_append]
      refine (length_comment (text ++ rest)).trans ?_
      rw [lengthFrom_line inLine, List.length_cons, List.length_cons]
      omega
    | true =>
      -- two more slashes in a comment are part of its line
      have noLineEnd : isLineEnd slash = false := by decide
      refine lengthFrom_line ?_ rest
      exact List.forall_mem_cons.mpr ⟨noLineEnd, List.forall_mem_cons.mpr ⟨noLineEnd, inLine⟩⟩

/-- **No stretches reach further than what is counted**, wherever they cut comments short. -/
theorem length_flatten_le {stretches : List (List UInt8)} (all : ∀ s ∈ stretches, IsStretch s)
    (rest : List UInt8) : ∀ inComment : Bool,
      stretches.flatten.length ≤ lengthFrom inComment (stretches.flatten ++ rest) := by
  induction stretches with
  | nil => exact fun _ => Nat.zero_le _
  | cons stretch later ih =>
    obtain ⟨first, others⟩ := List.forall_mem_cons.mp all
    intro inComment
    obtain ⟨state, same⟩ := exists_lengthFrom_stretch first inComment
    rw [List.flatten_cons, List.append_assoc, same, List.length_append]
    exact Nat.add_le_add_left (ih others state) _

/--
**What is counted in front of a token is the longest gap.** It is taken off stretch by stretch
without ever giving up, and is made of blanks and of comments that go on to the next line end or to
the end of the source. What is behind it is empty or begins with neither, no other stretches reach
further, and taking stretches off once more takes nothing off.
-/
theorem stretches?_longest (source : List UInt8) : ∃ stretches rest,
    stretches? source = some (stretches, rest)
      ∧ source = stretches.flatten ++ rest ∧ stretches.flatten.length = length source
      ∧ (∀ s ∈ stretches, IsStretch s) ∧ IsGap rest stretches.flatten
      ∧ (∀ b ∈ rest.head?, isBlank b = false) ∧ ¬ [slash, slash] <+: rest
      ∧ (∀ others : List (List UInt8), (∀ s ∈ others, IsStretch s) →
          others.flatten <+: source → others.flatten <+: stretches.flatten)
      ∧ stretches? rest = some ([], rest) ∧ length rest = 0 := by
  obtain ⟨stretches, rest, read, same, all, isGap, done, noBlank, noComment⟩ :=
    exists_stretches source
  have none := length_eq_zero noBlank noComment
  have counted : stretches.flatten.length = length source := by
    rw [same, isGap.length_append, none, Nat.add_zero]
  refine ⟨stretches, rest, read, same, counted, all, isGap, noBlank, noComment, ?_, done, none⟩
  intro others areStretches isPrefix
  obtain ⟨behind, cut⟩ := isPrefix
  have le : others.flatten.length ≤ stretches.flatten.length := by
    rw [counted, ← cut]
    exact length_flatten_le areStretches behind false
  exact List.prefix_of_prefix_length_le ⟨behind, cut⟩ ⟨rest, same.symm⟩ le

/-- Two slashes in a comment open no other one, a carriage return ends it, and a single slash is a
token. -/
example : stretches? (Text.bytes "// a // b\r /x")
    = some ([Text.bytes "// a // b", Text.bytes "\r "], Text.bytes "/x") := by
  decide +kernel

end Gap

end Scriptlet
