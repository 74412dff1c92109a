import Scriptlet.Proofs.Span.Place
import Scriptlet.Span.Scan

/-!
# Source lines

The line that is shown for a span is the piece of the source with the span's line number, without
the carriage returns at its end (`sourceLine_of_text`). Found by positions it is the same line, and
on the way nothing goes wrong: no range leaves the source, no difference is negative
(`place?_eq`, `lineRange?_eq`, `sourceLine?_eq`).

The range of a line never cuts a character in two. It begins at the front of the source or behind a
newline, and it ends in front of a newline or with the source. A newline is a character of its own,
so what is behind one is a stored text again, and a stored text begins with the first byte of a
character (`isBoundary_append`).
-/

namespace Scriptlet

open Text

/-! ## Searching backwards -/

namespace Text

theorem lastIndexOf?_of_free {b : UInt8} : ∀ {stored : List UInt8}, b ∉ stored →
    lastIndexOf? b stored = none
  | [], _ => rfl
  | a :: stored, free => by
    rw [List.mem_cons, not_or] at free
    unfold lastIndexOf?
    rw [lastIndexOf?_of_free free.2]
    simp [Ne.symm free.1]

theorem lastIndexOf?_append {b : UInt8} {last : List UInt8} (free : b ∉ last) :
    ∀ front : List UInt8, lastIndexOf? b (front ++ b :: last) = some front.length
  | [] => by simp [lastIndexOf?, lastIndexOf?_of_free free]
  | a :: front => by
    rw [List.cons_append, lastIndexOf?, lastIndexOf?_append free front]
    rfl

/-- The last newline is the last byte of the earlier lines, if there are any. -/
theorem lastIndexOf?_unsplit {last : List UInt8} (free : newline ∉ last)
    (earlier : List (List UInt8)) :
    lastIndexOf? newline (unsplit newline earlier ++ last) = none ∧ earlier = []
      ∨ ∃ i, lastIndexOf? newline (unsplit newline earlier ++ last) = some i
        ∧ (unsplit newline earlier).length = i + 1 := by
  rcases List.eq_nil_or_concat earlier with rfl | ⟨front, piece, rfl⟩
  · exact .inl ⟨lastIndexOf?_of_free free, rfl⟩
  · have whole : unsplit newline (front.concat piece)
        = (unsplit newline front ++ piece) ++ [newline] := by
      simp [unsplit_append]
    refine .inr ⟨(unsplit newline front ++ piece).length, ?_, ?_⟩
    · rw [whole, List.append_assoc, List.singleton_append, lastIndexOf?_append free]
    · rw [whole, List.length_append, List.length_singleton]

theorem behindNewline_unsplit {last : List UInt8} (free : newline ∉ last)
    (earlier : List (List UInt8)) :
    behindNewline (unsplit newline earlier ++ last) = (unsplit newline earlier).length := by
  unfold behindNewline
  rcases lastIndexOf?_unsplit free earlier with ⟨none, rfl⟩ | ⟨i, found, length⟩
  · rw [none]
    rfl
  · rw [found, length]

/-- Nothing negative comes up, since the last newline is one of the bytes counted. -/
theorem lengthBehindNewline?_unsplit {last : List UInt8} (free : newline ∉ last)
    (earlier : List (List UInt8)) :
    lengthBehindNewline? (unsplit newline earlier ++ last) = .ok last.length := by
  unfold lengthBehindNewline?
  rcases lastIndexOf?_unsplit free earlier with ⟨none, rfl⟩ | ⟨i, found, length⟩
  · rw [none]
    rfl
  · rw [found, List.length_append, length]
    have behind : Fault.subtract? (i + 1 + last.length) i = .ok (last.length + 1) := by
      rw [Fault.subtract?, if_pos (by omega)]
      congr 1
      omega
    show Fault.subtract? _ i >>= _ = _
    rw [behind]
    rfl

/-! ## Characters -/

/-- The first byte of a character is no byte that goes on with one. -/
theorem isFirst_encodeChar (c : Char) :
    ∀ b ∈ (String.utf8EncodeChar c).head?, b < 0x80 ∨ 0xC0 ≤ b := by
  have scalar : c.val.toNat < 0xD800 ∨ (0xDFFF < c.val.toNat ∧ c.val.toNat < 0x110000) := c.valid
  have same : Char.ofNat c.val.toNat = c := Char.ofNat_toNat c
  rw [← same, encodeChar_ofNat scalar]
  simp only [UInt8.lt_iff_toNat_lt, UInt8.le_iff_toNat_le]
  intro b hb
  repeat' split at hb
  all_goals
    obtain rfl := Option.some.inj hb
    rw [toNat_ofNat_of_lt (by omega)]
    show _ < 128 ∨ 192 ≤ _
    omega

/-- What a stored text goes on with after another one begins a character. -/
theorem isBoundary_append (s t : String) :
    isBoundary (bytes s ++ bytes t) (bytes s).length = true := by
  unfold isBoundary
  rw [List.getElem?_append_right (Nat.le_refl _), Nat.sub_self, ← List.head?_eq_getElem?]
  have first : ∀ b ∈ (bytes t).head?, b < 0x80 ∨ 0xC0 ≤ b := by
    unfold bytes
    cases t.toList with
    | nil => simp
    | cons c rest =>
      intro b hb
      rw [encode_cons, List.head?_append] at hb
      cases own : (String.utf8EncodeChar c).head? with
      | none => simp at own
      | some d =>
        rw [own] at hb
        exact isFirst_encodeChar c b (own.trans hb)
  cases ht : bytes t with
  | nil => simp
  | cons b rest =>
    have := first b (by simp [ht])
    simpa using this

/-! ## Texts between newlines -/

/-- Whole lines of a stored text are a stored text, and so is what is behind them. -/
theorem exists_text_unsplit {rest : List UInt8} : ∀ {pieces : List (List UInt8)} {text : String},
    bytes text = unsplit newline pieces ++ rest →
    ∃ s t, unsplit newline pieces = bytes s ∧ rest = bytes t
  | [], text, stored => ⟨"", text, rfl, stored.symm⟩
  | piece :: pieces, text, stored => by
    have stored : bytes text = piece ++ newline :: (unsplit newline pieces ++ rest) := by
      simpa [unsplit] using stored
    obtain ⟨s, rfl⟩ := exists_text_before (by decide) stored
    obtain ⟨behind, same⟩ := exists_text_after (by decide) stored
    obtain ⟨s', t, lines, rfl⟩ := exists_text_unsplit same.symm
    refine ⟨s ++ "\n" ++ s', t, ?_, rfl⟩
    rw [bytes_append, bytes_append, ← lines]
    rfl

/-- What a newline of a stored text ends is a stored text, and so is what goes on with it. -/
theorem exists_text_ended {text : String} {front rest : List UInt8}
    (ends : ∀ b ∈ rest.head?, b = newline) (stored : bytes text = front ++ rest) :
    ∃ s t, front = bytes s ∧ rest = bytes t := by
  cases rest with
  | nil => exact ⟨text, "", by rw [stored, List.append_nil], rfl⟩
  | cons b rest =>
    obtain rfl : b = newline := ends b rfl
    obtain ⟨s, rfl⟩ := exists_text_before (by decide) stored
    obtain ⟨t, rfl⟩ := exists_text_after (by decide) stored
    exact ⟨s, "\n" ++ t, rfl, by rw [bytes_append]; rfl⟩

/-- All carriage returns at the end of a text are dropped, and nothing else. -/
theorem exists_returns (s : String) : ∃ n,
    s.toList = (trimReturns s).toList ++ List.replicate n '\r'
      ∧ (trimReturns s).toList.getLast? ≠ some '\r' := by
  -- read backwards, the returns stand in front
  let back := s.toList.reverse
  have kept : (trimReturns s).toList = (back.dropWhile (· == '\r')).reverse := by
    simp [trimReturns, back]
  have returns : back.takeWhile (· == '\r')
      = List.replicate (back.takeWhile (· == '\r')).length '\r' := by
    refine List.eq_replicate_iff.mpr ⟨rfl, fun c hc => ?_⟩
    exact beq_iff_eq.mp (List.all_eq_true.mp List.all_takeWhile c hc)
  refine ⟨(back.takeWhile (· == '\r')).length, ?_, ?_⟩
  · calc s.toList
        = (back.takeWhile (· == '\r') ++ back.dropWhile (· == '\r')).reverse := by
          rw [List.takeWhile_append_dropWhile, List.reverse_reverse]
      _ = (trimReturns s).toList ++ (back.takeWhile (· == '\r')).reverse := by
          rw [List.reverse_append, kept]
      _ = _ := by rw [returns, List.reverse_replicate, List.length_replicate]
  · rw [kept, List.getLast?_reverse]
    intro last
    have other := List.head?_dropWhile_not (· == '\r') back
    rw [last] at other
    cases other

theorem encode_returns (n : Nat) :
    encode (List.replicate n '\r') = List.replicate n carriageReturn := by
  induction n with
  | zero => rfl
  | succ n ih =>
    rw [List.replicate_succ, encode_cons, ih]
    rfl

end Text

namespace Span

/-! ## By position -/

theorem slice?_front (s : Span) (source : List UInt8) :
    slice? source 0 (min s.offset source.length) = .ok (s.before source) := by
  have same : source.take (min s.offset source.length) = source.take s.offset := by
    rw [List.take_eq_take_iff]
    omega
  rw [slice?, if_pos ⟨Nat.zero_le _, Nat.min_le_right _ _⟩, List.drop_zero, same, Span.before]

theorem slice?_back (s : Span) (source : List UInt8) :
    slice? source (min s.offset source.length) source.length = .ok (source.drop s.offset) := by
  rw [slice?, if_pos ⟨Nat.min_le_right _ _, Nat.le_refl _⟩, List.take_length]
  rcases Nat.le_total s.offset source.length with inside | past
  · rw [Nat.min_eq_left inside]
  · rw [Nat.min_eq_right past, List.drop_eq_nil_of_le past, List.drop_length]

/-- **The place of a span is found by positions without a fault.** -/
theorem place?_eq (s : Span) (source : List UInt8) :
    s.place? source = .ok (s.line source, s.column source) := by
  obtain ⟨earlier, front, back, rest, around⟩ := s.exists_around source
  unfold place?
  rw [s.slice?_front]
  show lengthBehindNewline? (s.before source) >>= _ = _
  rw [around.column_eq, line, around.before, lengthBehindNewline?_unsplit around.freeFront,
    Nat.add_comm]
  rfl

namespace Around

variable {s : Span} {source front back rest : List UInt8} {earlier : List (List UInt8)}

theorem length_before (h : s.Around source earlier front back rest) :
    min s.offset source.length = (unsplit newline earlier).length + front.length := by
  have length := congrArg List.length h.before
  rwa [Span.before, List.length_take, List.length_append] at length

/-- The line is found between the newline in front of it and the one behind it. -/
theorem lineRange?_eq (h : s.Around source earlier front back rest) :
    s.lineRange? source = .ok ((unsplit newline earlier).length,
      (unsplit newline earlier).length + (front ++ back).length) := by
  have start : behindNewline (s.before source) = (unsplit newline earlier).length := by
    rw [h.before, behindNewline_unsplit h.freeFront]
  have stop : (source.drop s.offset).findIdx (· == newline) = back.length := by
    have inside : back.findIdx (· == newline) = back.length := by
      rw [List.findIdx_eq_length]
      intro b hb
      rw [beq_eq_false_iff_ne]
      rintro rfl
      exact h.freeBack hb
    rw [h.behind, List.findIdx_append, inside, if_neg (Nat.lt_irrefl _)]
    cases hr : rest with
    | nil => simp
    | cons b more =>
      obtain rfl : b = newline := h.ends b (by simp [hr])
      simp [List.findIdx_cons]
  simp only [lineRange?, s.slice?_front, s.slice?_back]
  show Except.ok (_, _) = _
  rw [start, stop, h.length_before, List.length_append, Nat.add_assoc]

end Around

/-! ## The line of a span in a text -/

/-- A text falls into what is before the line that a span begins on, that line without its newline,
and what is behind it. -/
structure OnLine (s : Span) (text before own behind : String) : Prop where
  stored : bytes text = bytes before ++ bytes own ++ bytes behind
  listed : (split '\n' text.toList)[s.line (bytes text) - 1]? = some own.toList
  lineBytes : s.lineBytes (bytes text) = bytes own
  range : s.lineRange? (bytes text)
    = .ok ((bytes before).length, (bytes before).length + (bytes own).length)
  place : min s.offset (bytes text).length = (bytes before).length + s.column (bytes text)
  within : s.column (bytes text) ≤ (bytes own).length
  /-- The line ends at the next newline. -/
  free : newline ∉ bytes own
  ends : ∀ b ∈ (bytes behind).head?, b = newline

theorem exists_onLine (text : String) (s : Span) :
    ∃ before own behind, s.OnLine text before own behind := by
  obtain ⟨earlier, front, back, rest, around⟩ := s.exists_around (bytes text)
  obtain ⟨before, remainder, linesBefore, lineRest⟩ := exists_text_unsplit around.source_eq
  obtain ⟨own, behind, lineOwn, restBehind⟩ := exists_text_ended around.ends lineRest.symm
  have range := around.lineRange?_eq
  rw [linesBefore, lineOwn] at range
  refine ⟨before, own, behind, ?_, ?_, ?_, range, ?_, ?_, ?_, ?_⟩
  · rw [around.source_eq, linesBefore, lineOwn, restBehind, List.append_assoc]
  · -- the pieces of the bytes are the stored pieces of the text
    have cut : split newline (bytes text) = (split '\n' text.toList).map encode :=
      split_encode text.toList
    have piece := around.getElem?_split
    rw [cut, List.getElem?_map, Option.map_eq_some_iff] at piece
    obtain ⟨line, piece, same⟩ := piece
    have chars : own = String.ofList line := by
      apply bytes_injective
      rw [← lineOwn, ← same, bytes, String.toList_ofList]
    rw [chars, String.toList_ofList, piece]
  · rw [around.lineBytes_eq, lineOwn]
  · rw [around.length_before, around.column_eq, linesBefore]
  · rw [around.column_eq, ← lineOwn, List.length_append]
    exact Nat.le_add_right _ _
  · rw [← lineOwn, List.mem_append, not_or]
    exact ⟨around.freeFront, around.freeBack⟩
  · rw [← restBehind]
    exact around.ends

namespace OnLine

variable {s : Span} {text before own behind : String}

theorem sourceLine_eq (h : s.OnLine text before own behind) :
    s.sourceLine (bytes text) = trimReturns own := by
  unfold sourceLine
  rw [h.lineBytes, decode?_bytes]

theorem isBoundary_start (h : s.OnLine text before own behind) :
    isBoundary (bytes text) (bytes before).length = true := by
  rw [h.stored, List.append_assoc, ← bytes_append]
  exact isBoundary_append before (own ++ behind)

theorem isBoundary_stop (h : s.OnLine text before own behind) :
    isBoundary (bytes text) ((bytes before).length + (bytes own).length) = true := by
  rw [h.stored, ← List.length_append, ← bytes_append]
  exact isBoundary_append (before ++ own) behind

/-- There is a text in the range of the line: the line. -/
theorem textBetween?_eq (h : s.OnLine text before own behind) :
    textBetween? (bytes text) (bytes before).length
      ((bytes before).length + (bytes own).length) = some own := by
  rw [textBetween?, if_pos ⟨Nat.le_add_right _ _, h.isBoundary_start, h.isBoundary_stop⟩, h.stored,
    ← List.length_append, List.take_left, List.drop_left, decode?_bytes]

theorem sourceLine?_eq (h : s.OnLine text before own behind) :
    s.sourceLine? (bytes text) = .ok (s.sourceLine (bytes text)) := by
  unfold sourceLine?
  rw [h.range]
  show Except.ok (trimReturns _) = _
  rw [h.textBetween?_eq, h.sourceLine_eq]
  rfl

/-- The line is what is shown of it and the carriage returns at its end. -/
theorem exists_returns (h : s.OnLine text before own behind) : ∃ n,
    own.toList = (s.sourceLine (bytes text)).toList ++ List.replicate n '\r'
      ∧ bytes own = bytes (s.sourceLine (bytes text)) ++ List.replicate n carriageReturn
      ∧ (s.sourceLine (bytes text)).toList.getLast? ≠ some '\r' := by
  obtain ⟨n, returns, last⟩ := Text.exists_returns own
  rw [← h.sourceLine_eq] at returns last
  refine ⟨n, returns, ?_, last⟩
  show encode own.toList = encode (s.sourceLine (bytes text)).toList ++ _
  rw [returns, encode_append, encode_returns]

end OnLine

/--
**The line shown for a span is the line that it begins on**: the one with the span's line number, cut
out of the text at its newlines, without the carriage returns at its end. By positions the same line
is found, no step goes wrong, and both ends of its range are between two characters, so there always
is a text in the range.
-/
theorem sourceLine_of_text (text : String) (s : Span) : ∃ (line : List Char) (start stop : Nat),
    (split '\n' text.toList)[s.line (bytes text) - 1]? = some line
      ∧ (∃ n, line = (s.sourceLine (bytes text)).toList ++ List.replicate n '\r')
      ∧ (s.sourceLine (bytes text)).toList.getLast? ≠ some '\r'
      ∧ s.place? (bytes text) = .ok (s.line (bytes text), s.column (bytes text))
      ∧ s.lineRange? (bytes text) = .ok (start, stop)
      ∧ isBoundary (bytes text) start = true ∧ isBoundary (bytes text) stop = true
      ∧ textBetween? (bytes text) start stop = some (String.ofList line)
      ∧ s.sourceLine? (bytes text) = .ok (s.sourceLine (bytes text)) := by
  obtain ⟨before, own, behind, onLine⟩ := s.exists_onLine text
  obtain ⟨n, returns, -, last⟩ := onLine.exists_returns
  refine ⟨own.toList, _, _, onLine.listed, ⟨n, returns⟩, last, s.place?_eq _, onLine.range,
    onLine.isBoundary_start, onLine.isBoundary_stop, ?_, onLine.sourceLine?_eq⟩
  rw [onLine.textBetween?_eq, String.ofList_toList]

end Span

end Scriptlet
