import Scriptlet.Text.RoundTrip

/-!
# ASCII bytes in a stored text

UTF-8 keeps the bytes below 0x80 for the ASCII characters. Two things follow.

* A list of ASCII bytes is the stored form of the text with the same values, so reading it never
  meets a fault (`decodeLossy_ascii`).
* An ASCII byte in a stored text is a whole character, so the text can be cut there
  (`exists_cut_of_ascii`). What stands between two quotes is therefore a text of its own
  (`exists_text_between`), wherever the reader of the quotes came from, and whether bytes are a
  text is seen from the two sides of an ASCII byte alone (`decode?_append_cons_eq_none_iff`).
-/

namespace Scriptlet.Text

/-- Whether a byte is that of an ASCII character. -/
def IsAscii (b : UInt8) : Prop := b.toNat < 0x80

instance (b : UInt8) : Decidable (IsAscii b) := inferInstanceAs (Decidable (b.toNat < 0x80))

/-! ## Lists of ASCII bytes -/

theorem encodeChar_ascii {n : Nat} (h : n < 0x80) :
    String.utf8EncodeChar (Char.ofNat n) = [UInt8.ofNat n] := by
  rw [encodeChar_ofNat (by omega), if_pos (by omega)]

theorem encode_ofAscii : ∀ values : List UInt8, (∀ b ∈ values, IsAscii b) →
    encode (values.map fun b => Char.ofNat b.toNat) = values
  | [], _ => rfl
  | b :: values, h => by
    have hb : b.toNat < 0x80 := h b List.mem_cons_self
    have ih := encode_ofAscii values fun x hx => h x (List.mem_cons_of_mem _ hx)
    rw [List.map_cons, encode_cons, encodeChar_ascii hb, ih, UInt8.ofNat_toNat]
    rfl

theorem bytes_ofByteValues {values : List UInt8} (h : ∀ b ∈ values, IsAscii b) :
    bytes (ofByteValues values) = values := by
  rw [bytes, ofByteValues, String.toList_ofList, encode_ofAscii values h]

/-- ASCII bytes are read as the characters with their values. -/
theorem decodeLossy_ascii {values : List UInt8} (h : ∀ b ∈ values, IsAscii b) :
    decodeLossy values = ofByteValues values := by
  rw [← decodeLossy_bytes (ofByteValues values), bytes_ofByteValues h]

theorem ofByteValues_ne_empty {values : List UInt8} (h : values ≠ []) : ofByteValues values ≠ "" := by
  intro none
  have chars := congrArg String.toList none
  rw [ofByteValues, String.toList_ofList] at chars
  exact h (List.map_eq_nil_iff.mp chars)

theorem exists_byte_of_mem_ofByteValues {values : List UInt8} {c : Char}
    (h : c ∈ (ofByteValues values).toList) : ∃ b ∈ values, Char.ofNat b.toNat = c := by
  rw [ofByteValues, String.toList_ofList] at h
  exact List.mem_map.mp h

theorem toNat_ascii {c : Char} (h : c.toNat < 0x80) : (UInt8.ofNat c.toNat).toNat = c.toNat :=
  toNat_ofNat_of_lt (by omega)

/-- The stored form of a text in ASCII has one byte for each character. -/
theorem bytes_of_ascii {s : String} (h : ∀ c ∈ s.toList, c.toNat < 0x80) :
    bytes s = s.toList.map fun c => UInt8.ofNat c.toNat := by
  have same : (s.toList.map fun c => UInt8.ofNat c.toNat).map (fun b => Char.ofNat b.toNat)
      = s.toList := by
    rw [List.map_map, List.map_congr_left (g := id), List.map_id]
    intro c hc
    rw [Function.comp_apply, toNat_ascii (h c hc), Char.ofNat_toNat, id]
  have ascii : ∀ b ∈ s.toList.map (fun c => UInt8.ofNat c.toNat), IsAscii b := by
    intro b hb
    obtain ⟨c, hc, rfl⟩ := List.mem_map.mp hb
    rw [IsAscii, toNat_ascii (h c hc)]
    exact h c hc
  rw [bytes, ← encode_ofAscii _ ascii, same]

/-- The stored form of a text in ASCII has the values of its characters. -/
theorem exists_char_of_mem_bytes {s : String} (h : ∀ c ∈ s.toList, c.toNat < 0x80) {b : UInt8}
    (hb : b ∈ bytes s) : ∃ c ∈ s.toList, b.toNat = c.toNat := by
  rw [bytes_of_ascii h] at hb
  obtain ⟨c, hc, rfl⟩ := List.mem_map.mp hb
  exact ⟨c, hc, toNat_ascii (h c hc)⟩

theorem ofByteValues_bytes {s : String} (h : ∀ c ∈ s.toList, c.toNat < 0x80) :
    ofByteValues (bytes s) = s := by
  have ascii : ∀ b ∈ bytes s, IsAscii b := by
    intro b hb
    obtain ⟨c, hc, same⟩ := exists_char_of_mem_bytes h hb
    rw [IsAscii, same]
    exact h c hc
  rw [← decodeLossy_ascii ascii, decodeLossy_bytes]

theorem bytes_ne_nil {s : String} (h : s ≠ "") : bytes s ≠ [] := by
  intro none
  exact h (bytes_injective none)

/-! ## Cutting a stored text -/

/-- A character that is not ASCII has no ASCII byte. -/
theorem not_ascii_of_mem {n : Nat} {b : UInt8}
    (scalar : n < 0xD800 ∨ (0xDFFF < n ∧ n < 0x110000)) (high : 0x7F < n)
    (h : b ∈ String.utf8EncodeChar (Char.ofNat n)) : ¬ IsAscii b := by
  have ofNat : ∀ m, b = UInt8.ofNat m → 0x80 ≤ m → m < 256 → ¬ IsAscii b := by
    rintro m rfl low up
    rw [IsAscii, toNat_ofNat_of_lt up]
    omega
  rw [encodeChar_ofNat scalar, if_neg (by omega)] at h
  repeat' split at h
  all_goals simp only [List.mem_cons, List.not_mem_nil, or_false] at h
  · rcases h with h | h
    all_goals exact ofNat _ h (by omega) (by omega)
  · rcases h with h | h | h
    all_goals exact ofNat _ h (by omega) (by omega)
  · rcases h with h | h | h | h
    all_goals exact ofNat _ h (by omega) (by omega)

/-- A character that has an ASCII byte has no other byte. -/
theorem encodeChar_of_mem {c : Char} {b : UInt8} (h : b ∈ String.utf8EncodeChar c)
    (ascii : IsAscii b) : c = Char.ofNat b.toNat ∧ String.utf8EncodeChar c = [b] := by
  have scalar : c.val.toNat < 0xD800 ∨ (0xDFFF < c.val.toNat ∧ c.val.toNat < 0x110000) :=
    c.valid
  have same : Char.ofNat c.val.toNat = c := Char.ofNat_toNat c
  have low : c.val.toNat ≤ 0x7F := Nat.le_of_not_lt fun high =>
    not_ascii_of_mem scalar high (by rw [same]; exact h) ascii
  have single : String.utf8EncodeChar c = [UInt8.ofNat c.val.toNat] := by
    rw [← same, encodeChar_ascii (by omega), same]
  rw [single, List.mem_singleton] at h
  refine ⟨?_, by rw [single, h]⟩
  rw [h, toNat_ofNat_of_lt (by omega), same]

/-- Stored characters have an ASCII byte in them only for one of the characters. -/
theorem not_mem_encode {chars : List Char} {b : UInt8} (ascii : IsAscii b)
    (h : Char.ofNat b.toNat ∉ chars) : b ∉ encode chars := by
  intro hb
  obtain ⟨c, hc, hb⟩ := List.mem_flatMap.mp hb
  obtain ⟨rfl, -⟩ := encodeChar_of_mem hb ascii
  exact h hc

theorem not_mem_bytes {s : String} {b : UInt8} (ascii : IsAscii b)
    (h : Char.ofNat b.toNat ∉ s.toList) : b ∉ bytes s :=
  not_mem_encode ascii h

/-- A stored text can be cut at an ASCII byte. -/
theorem exists_cut_of_ascii {b : UInt8} (ascii : IsAscii b) {rest : List UInt8} :
    ∀ (chars : List Char) (front : List UInt8), encode chars = front ++ b :: rest →
      ∃ before after, chars = before ++ Char.ofNat b.toNat :: after ∧ encode before = front
        ∧ encode after = rest
  | [], front, h => by simp at h
  | c :: chars, front, h => by
    rw [encode_cons] at h
    have inLater : ∀ front', front = String.utf8EncodeChar c ++ front' →
        encode chars = front' ++ b :: rest →
        ∃ before after, c :: chars = before ++ Char.ofNat b.toNat :: after
          ∧ encode before = front ∧ encode after = rest := by
      intro front' hf hl
      obtain ⟨before, after, rfl, hb, ha⟩ := exists_cut_of_ascii ascii chars front' hl
      exact ⟨c :: before, after, rfl, by rw [encode_cons, hb, hf], ha⟩
    rcases List.append_eq_append_iff.mp h with ⟨front', hf, hl⟩ | ⟨back, hc, hl⟩
    · exact inLater front' hf hl
    · cases back with
      | nil => exact inLater [] (by simpa using hc.symm) (by simpa using hl.symm)
      | cons d back =>
        -- the byte is one of `c`, and then the only one
        obtain ⟨rfl, hl⟩ : b = d ∧ rest = back ++ encode chars := by simpa using hl
        obtain ⟨hchar, hone⟩ := encodeChar_of_mem (c := c) (by rw [hc]; simp) ascii
        have hshape : front ++ b :: back = [b] := by rw [← hc, hone]
        obtain ⟨rfl, rfl⟩ : front = [] ∧ back = [] := by
          have := congrArg List.length hshape
          simp only [List.length_append, List.length_cons, List.length_nil] at this
          exact ⟨List.eq_nil_of_length_eq_zero (by omega), List.eq_nil_of_length_eq_zero (by omega)⟩
        exact ⟨[], chars, by rw [← hchar]; rfl, rfl, by simpa using hl.symm⟩

/-- What follows an ASCII byte of a stored text is a stored text. -/
theorem exists_text_after {s : String} {front rest : List UInt8} {b : UInt8} (ascii : IsAscii b)
    (h : bytes s = front ++ b :: rest) : ∃ text, rest = bytes text := by
  obtain ⟨before, after, -, -, hrest⟩ := exists_cut_of_ascii ascii s.toList front h
  exact ⟨String.ofList after, by rw [bytes, String.toList_ofList, hrest]⟩

/-- What stands before an ASCII byte of a stored text is a stored text. -/
theorem exists_text_before {s : String} {front rest : List UInt8} {b : UInt8} (ascii : IsAscii b)
    (h : bytes s = front ++ b :: rest) : ∃ text, front = bytes text := by
  obtain ⟨before, after, -, hfront, -⟩ := exists_cut_of_ascii ascii s.toList front h
  exact ⟨String.ofList before, by rw [bytes, String.toList_ofList, hfront]⟩

/-- Bytes on both sides of an ASCII byte are a text if both sides are. -/
theorem decode?_append_cons_eq_none_iff {front rest : List UInt8} {b : UInt8}
    (ascii : IsAscii b) :
    decode? (front ++ b :: rest) = none ↔ decode? front = none ∨ decode? rest = none := by
  constructor
  · intro noText
    cases hf : decode? front with
    | none => exact .inl rfl
    | some s =>
      cases hr : decode? rest with
      | none => exact .inr rfl
      | some t =>
        -- then the whole is stored from the two texts with a character between them
        have stored : front ++ b :: rest = bytes (s ++ ofByteValues [b] ++ t) := by
          rw [bytes_append, bytes_append, bytes_ofByteValues (by simpa using ascii),
            ← decode?_eq_some_iff.mp hf, ← decode?_eq_some_iff.mp hr]
          simp
        rw [stored, decode?_bytes] at noText
        nomatch noText
  · intro noText
    cases h : decode? (front ++ b :: rest) with
    | none => rfl
    | some s =>
      have stored := (decode?_eq_some_iff.mp h).symm
      obtain ⟨before, rfl⟩ := exists_text_before ascii stored
      obtain ⟨after, rfl⟩ := exists_text_after ascii stored
      rw [decode?_bytes, decode?_bytes] at noText
      rcases noText with noText | noText <;> nomatch noText

/-- What stands between two ASCII bytes of a stored text is a stored text. -/
theorem exists_text_between {s : String} {front content rest : List UInt8} {b d : UInt8}
    (opening : IsAscii b) (closing : IsAscii d) (h : bytes s = front ++ b :: (content ++ d :: rest)) :
    ∃ text, content = bytes text := by
  obtain ⟨text, htext⟩ := exists_text_after opening h
  exact exists_text_before closing htext.symm

end Scriptlet.Text
