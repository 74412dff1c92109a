import Mathlib.Algebra.GroupWithZero.Nat
import Scriptlet.Proofs.Text.Line
import Scriptlet.Span.Location

/-!
# Places

The line and the column of an offset say again where it is (`place_of_offset`). The bytes in front
of an offset are whole lines, each with its newline, and a piece of the line that the offset is on,
and the bytes behind it begin with the other piece of that line (`Around`). All that is counted or
searched for in them can be read off this cut: the newlines in front are those of the whole lines,
what is behind the last one is the first piece, and the pieces of the source are the whole lines,
then the two pieces put together.

`offsetOf` is the way back. It only knows the pieces of the source, not the offset.
-/

namespace Scriptlet

open Text

/-- Each piece takes its own length and one for the separator behind it. -/
theorem Text.length_unsplit {α : Type} {separator : α} (pieces : List (List α)) :
    (unsplit separator pieces).length = (pieces.map (·.length + 1)).sum := by
  simp [unsplit, List.length_flatMap]

namespace Span

/-- The offset of a column of a line, lines counted from one. Each line in front takes its own bytes
and one for its newline. -/
def offsetOf (source : List UInt8) (line column : Nat) : Nat :=
  (((split newline source).take (line - 1)).map (·.length + 1)).sum + column

/-- How a source falls apart where a span begins: `earlier` lines, the line that the span begins on,
cut into `front` and `back`, and the `rest` behind that line, with the newline if there is one. -/
structure Around (s : Span) (source : List UInt8) (earlier : List (List UInt8))
    (front back rest : List UInt8) : Prop where
  before : s.before source = unsplit newline earlier ++ front
  behind : source.drop s.offset = back ++ rest
  freeEarlier : ∀ piece ∈ earlier, newline ∉ piece
  freeFront : newline ∉ front
  freeBack : newline ∉ back
  ends : ∀ b ∈ rest.head?, b = newline

theorem exists_around (s : Span) (source : List UInt8) :
    ∃ earlier front back rest, s.Around source earlier front back rest := by
  obtain ⟨earlier, front, before, freeEarlier, freeFront⟩ :=
    exists_unsplit newline (s.before source)
  by_cases h : newline ∈ source.drop s.offset
  · obtain ⟨back, more, behind, freeBack⟩ := List.eq_append_cons_of_mem h
    exact ⟨earlier, front, back, newline :: more, before, behind, freeEarlier, freeFront, freeBack,
      by simp⟩
  · exact ⟨earlier, front, source.drop s.offset, [], before, by simp, freeEarlier, freeFront, h,
      by simp⟩

namespace Around

variable {s t : Span} {source front back rest front' back' rest' : List UInt8}
  {earlier earlier' : List (List UInt8)}

theorem source_eq (h : s.Around source earlier front back rest) :
    source = unsplit newline earlier ++ (front ++ back ++ rest) := by
  have cut : s.before source ++ source.drop s.offset = source :=
    List.take_append_drop s.offset source
  rw [h.before, h.behind] at cut
  simpa using cut.symm

/-- The line number counts the lines in front. -/
theorem line_eq (h : s.Around source earlier front back rest) :
    s.line source = earlier.length + 1 := by
  unfold line
  rw [h.before, List.count_append, count_unsplit h.freeEarlier,
    List.count_eq_zero_of_not_mem h.freeFront]

theorem column_eq (h : s.Around source earlier front back rest) :
    s.column source = front.length := by
  unfold column
  rw [h.before, lastPiece_append h.freeFront]

theorem lineBytes_eq (h : s.Around source earlier front back rest) :
    s.lineBytes source = front ++ back := by
  unfold lineBytes
  rw [h.before, h.behind, lastPiece_append h.freeFront, firstPiece_append h.freeBack h.ends]

/-- The line that the span begins on is a piece of the source, behind the earlier ones. -/
theorem exists_split_eq (h : s.Around source earlier front back rest) :
    ∃ later, split newline source = earlier ++ (front ++ back) :: later := by
  have free : newline ∉ front ++ back := by simp [h.freeFront, h.freeBack]
  rw [h.source_eq, split_unsplit_append h.freeEarlier]
  cases hr : rest with
  | nil => exact ⟨[], by rw [List.append_nil, split_of_free free]⟩
  | cons b more =>
    obtain rfl : b = newline := h.ends b (by simp [hr])
    exact ⟨split newline more, by rw [split_append free]⟩

theorem getElem?_split (h : s.Around source earlier front back rest) :
    (split newline source)[s.line source - 1]? = some (front ++ back) := by
  obtain ⟨later, same⟩ := h.exists_split_eq
  rw [h.line_eq, same, Nat.add_sub_cancel, List.getElem?_append_right (Nat.le_refl _),
    Nat.sub_self]
  rfl

/-- The lines in front of a span and the bytes in front of it on its own line lead up to it. -/
theorem offsetOf_eq (h : s.Around source earlier front back rest) :
    offsetOf source (s.line source) (s.column source) = min s.offset source.length := by
  obtain ⟨later, same⟩ := h.exists_split_eq
  have length := congrArg List.length h.before
  rw [Span.before, List.length_take, List.length_append, length_unsplit] at length
  rw [offsetOf, h.line_eq, h.column_eq, same, Nat.add_sub_cancel, List.take_left, length]

end Around

theorem offsetOf_place (s : Span) (source : List UInt8) :
    offsetOf source (s.line source) (s.column source) = min s.offset source.length := by
  obtain ⟨earlier, front, back, rest, around⟩ := s.exists_around source
  exact around.offsetOf_eq

theorem line_le (s : Span) (source : List UInt8) : s.line source ≤ source.count newline + 1 :=
  Nat.succ_le_succ ((List.take_sublist s.offset source).count_le newline)

/-- A later line begins behind the end of an earlier one. -/
theorem offsetOf_lt_of_line_lt {source bytes : List UInt8} {line line' column column' : Nat}
    (listed : (split newline source)[line - 1]? = some bytes) (within : column ≤ bytes.length)
    (positive : 1 ≤ line) (later : line < line') :
    offsetOf source line column < offsetOf source line' column' := by
  obtain ⟨between, same⟩ : ∃ between, line' - 1 = line - 1 + 1 + between :=
    ⟨line' - line - 1, by omega⟩
  have lines : (split newline source).take (line' - 1) = (split newline source).take (line - 1)
      ++ [bytes] ++ ((split newline source).drop (line - 1 + 1)).take between := by
    rw [same, List.take_add, List.take_add_one, listed]
    rfl
  unfold offsetOf
  rw [lines]
  simp only [List.map_append, List.sum_append, List.map_cons, List.map_nil, List.sum_singleton]
  omega

/--
**The line and the column of an offset lead back to it.** The line is one of the source, the column
lies on it or at its end, and the lines in front, with one byte for each newline, and the column add
up to the offset, or to the end of the source if the offset is past it. So of two offsets in the
source the greater one is on a later line, or in a later column of the same line, and no two are in
the same place.
-/
theorem place_of_offset (source : List UInt8) :
    (∀ s : Span, 1 ≤ s.line source ∧ s.line source ≤ source.count newline + 1
        ∧ (∃ bytes, (split newline source)[s.line source - 1]? = some bytes
          ∧ s.column source ≤ bytes.length)
        ∧ offsetOf source (s.line source) (s.column source) = min s.offset source.length)
      ∧ ∀ s t : Span, s.offset ≤ source.length → t.offset ≤ source.length →
        (s.offset < t.offset ↔ s.line source < t.line source
          ∨ s.line source = t.line source ∧ s.column source < t.column source)
        ∧ (s.offset = t.offset
          ↔ s.line source = t.line source ∧ s.column source = t.column source) := by
  have located : ∀ s : Span, 1 ≤ s.line source ∧ ∃ bytes,
      (split newline source)[s.line source - 1]? = some bytes
        ∧ s.column source ≤ bytes.length := by
    intro s
    obtain ⟨earlier, front, back, rest, around⟩ := s.exists_around source
    refine ⟨Nat.le_add_left _ _, front ++ back, around.getElem?_split, ?_⟩
    rw [around.column_eq, List.length_append]
    exact Nat.le_add_right _ _
  have ordered : ∀ s t : Span, s.offset ≤ source.length → t.offset ≤ source.length →
      s.line source < t.line source → s.offset < t.offset := by
    intro s t hs ht later
    obtain ⟨positive, bytes, listed, within⟩ := located s
    have place := s.offsetOf_place source
    have place' := t.offsetOf_place source
    have lt : offsetOf source (s.line source) (s.column source)
        < offsetOf source (t.line source) (t.column source) :=
      offsetOf_lt_of_line_lt listed within positive later
    omega
  refine ⟨fun s => ?_, fun s t hs ht => ?_⟩
  · obtain ⟨positive, listed⟩ := located s
    exact ⟨positive, s.line_le source, listed, s.offsetOf_place source⟩
  · have behind := ordered s t hs ht
    have inFront := ordered t s ht hs
    have sameLine : s.line source = t.line source →
        s.offset + t.column source = t.offset + s.column source := by
      intro same
      have place := s.offsetOf_place source
      have place' := t.offsetOf_place source
      rw [same] at place
      unfold offsetOf at place place'
      omega
    omega

end Span

end Scriptlet
