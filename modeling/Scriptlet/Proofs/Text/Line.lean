import Scriptlet.Proofs.Text.Ascii
import Scriptlet.Text.Line

/-!
# Where lines end

A list is cut at its first separator (`split_append`), and stored bytes at their first newline
(`lines_append`), which gives an induction along their pieces (`pieces_induction`). Newlines are
ASCII, so what stands before and behind one is a stored text again. Hence the induction along the
lines of a text (`lines_induction`).

The other way round, pieces without a separator in them can be written down with a separator behind
each, and are found again (`split_unsplit`). Any list is made in that way, up to a last piece
(`exists_unsplit`), so a text is cut at its newlines where its bytes are (`split_encode`).
-/

namespace Scriptlet.Text

/-! ## Pieces -/

section Pieces

variable {α : Type} [DecidableEq α] {separator : α}

theorem split_of_free {list : List α} (free : separator ∉ list) :
    split separator list = [list] := by
  induction list with
  | nil => rfl
  | cons a list ih =>
    have other : a ≠ separator := fun same => free (same ▸ List.mem_cons_self)
    rw [split, if_neg other, ih fun hm => free (List.mem_cons_of_mem a hm)]

/-- A list is cut at its first separator. -/
theorem split_append {piece : List α} (free : separator ∉ piece) (rest : List α) :
    split separator (piece ++ separator :: rest) = piece :: split separator rest := by
  induction piece with
  | nil => rw [List.nil_append, split, if_pos rfl]
  | cons a piece ih =>
    have other : a ≠ separator := fun same => free (same ▸ List.mem_cons_self)
    rw [List.cons_append, split, if_neg other, ih fun hm => free (List.mem_cons_of_mem a hm)]

/-- The pieces with a separator behind each. -/
def unsplit (separator : α) (pieces : List (List α)) : List α :=
  pieces.flatMap (· ++ [separator])

omit [DecidableEq α] in
theorem unsplit_append (pieces pieces' : List (List α)) :
    unsplit separator (pieces ++ pieces')
      = unsplit separator pieces ++ unsplit separator pieces' :=
  List.flatMap_append

omit [DecidableEq α] in
@[simp] theorem unsplit_singleton (piece : List α) :
    unsplit separator [piece] = piece ++ [separator] :=
  List.flatMap_singleton _ _

/-- Pieces without a separator in them are found again in front of whatever follows. -/
theorem split_unsplit_append {pieces : List (List α)} (free : ∀ piece ∈ pieces, separator ∉ piece)
    (rest : List α) :
    split separator (unsplit separator pieces ++ rest) = pieces ++ split separator rest := by
  induction pieces with
  | nil => rfl
  | cons piece pieces ih =>
    have later := ih fun p hp => free p (List.mem_cons_of_mem piece hp)
    rw [unsplit, List.flatMap_cons, List.append_assoc, List.append_assoc, List.singleton_append,
      split_append (free piece List.mem_cons_self), List.cons_append, ← later]
    rfl

/-- Behind the last separator is nothing. -/
theorem split_unsplit {pieces : List (List α)} (free : ∀ piece ∈ pieces, separator ∉ piece) :
    split separator (unsplit separator pieces) = pieces ++ [[]] := by
  have found := split_unsplit_append free []
  rwa [List.append_nil] at found

/-- Any list is made of pieces with a separator behind each and a last one without. -/
theorem exists_unsplit (separator : α) : ∀ list : List α, ∃ pieces last,
    list = unsplit separator pieces ++ last
      ∧ (∀ piece ∈ pieces, separator ∉ piece) ∧ separator ∉ last
  | [] => ⟨[], [], rfl, List.forall_mem_nil _, List.not_mem_nil⟩
  | a :: list => by
    obtain ⟨pieces, last, same, free, freeLast⟩ := exists_unsplit separator list
    by_cases ha : a = separator
    · exact ⟨[] :: pieces, last, by simp [unsplit, ha, same],
        List.forall_mem_cons.mpr ⟨List.not_mem_nil, free⟩, freeLast⟩
    have longer : ∀ piece, separator ∉ piece → separator ∉ a :: piece := by
      intro piece hp
      simp [Ne.symm ha, hp]
    cases pieces with
    | nil => exact ⟨[], a :: last, by simp [unsplit, same], free, longer last freeLast⟩
    | cons piece more =>
      obtain ⟨own, others⟩ := List.forall_mem_cons.mp free
      exact ⟨(a :: piece) :: more, last, by simp [unsplit, same],
        List.forall_mem_cons.mpr ⟨longer piece own, others⟩, freeLast⟩

/-- There are as many separators as pieces. -/
theorem count_unsplit {pieces : List (List α)} (free : ∀ piece ∈ pieces, separator ∉ piece) :
    (unsplit separator pieces).count separator = pieces.length := by
  induction pieces with
  | nil => rfl
  | cons piece pieces ih =>
    have own : piece.count separator = 0 :=
      List.count_eq_zero_of_not_mem (free piece List.mem_cons_self)
    have later := ih fun p hp => free p (List.mem_cons_of_mem piece hp)
    rw [unsplit, List.flatMap_cons, List.count_append, List.count_append, own,
      List.count_singleton_self, List.length_cons, ← later, Nat.zero_add, Nat.add_comm]
    rfl

omit [DecidableEq α] in
/-- To put separators between pieces of which the last is empty is to put one behind each other. -/
theorem intercalate_concat_nil (pieces : List (List α)) :
    [separator].intercalate (pieces ++ [[]]) = unsplit separator pieces := by
  induction pieces with
  | nil => rfl
  | cons piece pieces ih =>
    have more : ∃ second rest, pieces ++ [[]] = second :: rest := by
      cases pieces <;> exact ⟨_, _, rfl⟩
    obtain ⟨second, rest, same⟩ := more
    rw [List.cons_append, same, List.intercalate_cons_cons, ← same, ih]
    rfl

end Pieces

/-! ## Pieces of a stored text -/

/-- What stands before the first newline goes on to it. -/
theorem firstPiece_append {piece rest : List UInt8} (free : newline ∉ piece)
    (ends : ∀ b ∈ rest.head?, b = newline) : firstPiece (piece ++ rest) = piece := by
  have inside : ∀ b ∈ piece, (b != newline) = true := by
    intro b hb
    rw [bne_iff_ne]
    rintro rfl
    exact free hb
  unfold firstPiece
  rw [List.takeWhile_append_of_pos inside]
  cases rest with
  | nil => simp
  | cons b rest => simp [ends b rfl]

/-- What stands after the last newline begins at it. -/
theorem lastPiece_append {pieces : List (List UInt8)} {last : List UInt8} (free : newline ∉ last) :
    lastPiece (unsplit newline pieces ++ last) = last := by
  have begins : ∀ b ∈ (unsplit newline pieces).reverse.head?, b = newline := by
    rcases List.eq_nil_or_concat pieces with rfl | ⟨front, piece, rfl⟩
    · simp [unsplit]
    · simp [unsplit_append]
  -- read backwards, it is a first piece
  have free' : newline ∉ last.reverse := by rwa [List.mem_reverse]
  have first := firstPiece_append free' begins
  unfold firstPiece at first
  rw [lastPiece, List.reverse_append, first, List.reverse_reverse]

theorem encode_unsplit (pieces : List (List Char)) :
    encode (unsplit '\n' pieces) = unsplit newline (pieces.map encode) := by
  induction pieces with
  | nil => rfl
  | cons piece pieces ih =>
    simp only [unsplit, List.flatMap_cons, List.map_cons, encode_append] at ih ⊢
    rw [ih]
    rfl

/-- A text is cut where its bytes are cut: a newline is no part of another character. -/
theorem split_encode (chars : List Char) :
    split newline (encode chars) = (split '\n' chars).map encode := by
  obtain ⟨pieces, last, rfl, free, freeLast⟩ := exists_unsplit '\n' chars
  have free' : ∀ piece ∈ pieces.map encode, newline ∉ piece := by
    simpa using fun piece hp => not_mem_encode (by decide) (free piece hp)
  rw [encode_append, encode_unsplit, split_unsplit_append free', split_unsplit_append free,
    split_of_free (not_mem_encode (by decide) freeLast), split_of_free freeLast, List.map_append]
  rfl

/-! ## Lines -/

/-- A text without a newline is one line, if anything is in it. -/
theorem lines_of_free {stored : List UInt8} (free : newline ∉ stored) :
    lines stored = if stored = [] then [] else [stored] := by
  rw [lines, split_of_free free]
  cases stored <;> rfl

/-- A stored text is cut at its first newline. -/
theorem lines_append {piece : List UInt8} (free : newline ∉ piece) (rest : List UInt8) :
    lines (piece ++ newline :: rest) = dropReturn piece :: lines rest := by
  obtain ⟨next, more, same⟩ := List.exists_cons_of_ne_nil (split_ne_nil newline rest)
  rw [lines, lines, split_append free, same, List.getLast?_cons_cons]
  rfl

/-- What ends a line is its newline, with a carriage return in front of it if that was dropped. -/
theorem exists_ending (piece : List UInt8) : ∃ ending,
    piece ++ [newline] = dropReturn piece ++ ending
    ∧ (ending = [newline] ∨ ending = [carriageReturn, newline]) := by
  rw [dropReturn]
  split
  · next last =>
    obtain ⟨front, rfl⟩ := List.getLast?_eq_some_iff.mp last
    exact ⟨[carriageReturn, newline], by simp, .inr rfl⟩
  · exact ⟨[newline], rfl, .inl rfl⟩

/-- Whether bytes are a text does not depend on a carriage return at their end. -/
theorem decode?_dropReturn (line : List UInt8) :
    decode? (dropReturn line) = none ↔ decode? line = none := by
  rw [dropReturn]
  split
  · next last =>
    obtain ⟨front, rfl⟩ := List.getLast?_eq_some_iff.mp last
    have empty : decode? [] ≠ none := by decide
    rw [List.dropLast_concat, decode?_append_cons_eq_none_iff (by decide),
      or_iff_left empty]
  · exact Iff.rfl

/-- Of a stored text a stored text is left when a carriage return is dropped. -/
theorem exists_text_dropReturn (s : String) : ∃ text, dropReturn (bytes s) = bytes text := by
  refine exists_text_of_decode ?_
  rw [ne_eq, decode?_dropReturn, decode?_bytes]
  exact Option.some_ne_none s

/-- Induction along the pieces of stored bytes. -/
theorem pieces_induction {motive : List UInt8 → Prop}
    (last : ∀ piece, newline ∉ piece → motive piece)
    (line : ∀ piece rest, newline ∉ piece → motive rest → motive (piece ++ newline :: rest))
    (stored : List UInt8) : motive stored := by
  by_cases h : newline ∈ stored
  · obtain ⟨piece, rest, same, free⟩ := List.eq_append_cons_of_mem h
    have shorter : rest.length < stored.length := by
      rw [same, List.length_append, List.length_cons]
      omega
    rw [same]
    exact line piece rest free (pieces_induction last line rest)
  · exact last stored h
termination_by stored.length

/-- Induction along the lines of a text. -/
theorem lines_induction {motive : String → Prop} (last : ∀ s, newline ∉ bytes s → motive s)
    (line : ∀ s front rest, bytes s = bytes front ++ newline :: bytes rest →
      newline ∉ bytes front → motive rest → motive s) (s : String) : motive s := by
  suffices ∀ stored s, bytes s = stored → motive s from this _ s rfl
  intro stored
  induction stored using pieces_induction with
  | last piece free =>
    rintro s rfl
    exact last s free
  | line piece rest free ih =>
    intro s stored
    obtain ⟨front, rfl⟩ := exists_text_before (by decide) stored
    obtain ⟨rest, rfl⟩ := exists_text_after (by decide) stored
    exact line s front rest stored free (ih rest rfl)

/-- The lines of a stored text are stored texts. -/
theorem exists_text_of_mem_lines (s : String) :
    ∀ line ∈ lines (bytes s), ∃ text, line = bytes text := by
  induction s using lines_induction with
  | last s free =>
    intro line hl
    rw [lines_of_free free] at hl
    split at hl
    · exact absurd hl List.not_mem_nil
    · exact ⟨s, List.mem_singleton.mp hl⟩
  | line s front rest stored free ih =>
    intro line hl
    rw [stored, lines_append free] at hl
    rcases List.mem_cons.mp hl with rfl | hl
    · exact exists_text_dropReturn front
    · exact ih line hl

end Scriptlet.Text
