import Scriptlet.Text.Utf8

/-!
# Reading and writing UTF-8

Reading gives back what was written, whatever follows it (`scan_encode`), and accepts nothing else
(`decode?_eq_some_iff`). So each text has one stored form, and a byte list that is a text is the
stored form of exactly one.

## Mechanism

One character is four cases by its number of bytes. `first_ofNat` and `next_ofNat` turn the steps
of the machine into arithmetic on natural numbers.
-/

namespace Scriptlet.Text

/-! ## The steps as arithmetic -/

theorem toNat_ofNat_of_lt {n : Nat} (h : n < 256) : (UInt8.ofNat n).toNat = n := by
  simp only [UInt8.toNat_ofNat']
  omega

/-- The step of a first byte with a given value. -/
theorem first_ofNat {n : Nat} (h : n < 256) : first (UInt8.ofNat n) =
    if n < 0x80 then .complete (Char.ofNat n)
    else if n < 0xC2 then .refused
    else if n < 0xE0 then .more ⟨1, 0x80, 0xBF, n - 0xC0⟩
    else if n < 0xF0 then
      .more ⟨2, if n = 0xE0 then 0xA0 else 0x80, if n = 0xED then 0x9F else 0xBF, n - 0xE0⟩
    else if n < 0xF5 then
      .more ⟨3, if n = 0xF0 then 0x90 else 0x80, if n = 0xF4 then 0x8F else 0xBF, n - 0xF0⟩
    else .refused := by
  simp only [first, toNat_ofNat_of_lt h]

/-- A byte within the bounds is taken. -/
theorem next_ofNat {owed bits n : Nat} {low high : UInt8} (atLeast : low.toNat ≤ n + 128)
    (atMost : n + 128 ≤ high.toNat) :
    (Begun.mk owed low high bits).next (UInt8.ofNat (n + 128)) =
      if owed ≤ 1 then .complete (Char.ofNat (bits * 64 + n))
      else .more ⟨owed - 1, 0x80, 0xBF, bits * 64 + n⟩ := by
  have := high.toNat_lt
  have same : (UInt8.ofNat (n + 128)).toNat = n + 128 := toNat_ofNat_of_lt (by omega)
  simp only [Begun.next, UInt8.le_iff_toNat_le, same, atLeast, atMost, and_self, if_true,
    show n + 128 - 0x80 = n by omega]

/-- Behind the second byte any six bits are taken. -/
theorem next_tail {bits n : Nat} (owed : Nat) (h : n < 64) :
    (Begun.mk owed 0x80 0xBF bits).next (UInt8.ofNat (n + 128)) =
      if owed ≤ 1 then .complete (Char.ofNat (bits * 64 + n))
      else .more ⟨owed - 1, 0x80, 0xBF, bits * 64 + n⟩ :=
  next_ofNat (by show 128 ≤ _; omega) (by show _ ≤ 191; omega)

theorem scan_first (b : UInt8) (rest : List UInt8) :
    scan none (b :: rest) = (first b).emit (scan · rest) := by
  simp only [scan]

theorem scan_complete {p : Begun} {b : UInt8} {c : Char} (rest : List UInt8)
    (h : p.next b = .complete c) : scan (some p) (b :: rest) = some c :: scan none rest := by
  simp only [scan, h, Step.emit]

theorem scan_more {p q : Begun} {b : UInt8} (rest : List UInt8) (h : p.next b = .more q) :
    scan (some p) (b :: rest) = scan (some q) rest := by
  simp only [scan, h, Step.emit]

/-! ## What is written is read -/

/-- One character is read back, whatever follows it. -/
theorem scan_encodeChar (c : Char) (rest : List UInt8) :
    scan none (String.utf8EncodeChar c ++ rest) = some c :: scan none rest := by
  have scalar : c.val.toNat < 0xD800 ∨ (0xDFFF < c.val.toNat ∧ c.val.toNat < 0x110000) :=
    c.valid
  have same : Char.ofNat c.val.toNat = c := Char.ofNat_toNat c
  unfold String.utf8EncodeChar
  generalize c.val.toNat = v at scalar same
  dsimp only
  repeat' split
  all_goals simp only [List.cons_append, List.nil_append]
  · rw [scan_first, first_ofNat (by omega), if_pos (by omega), same]
    rfl
  · rw [scan_first, first_ofNat (by omega), if_neg (by omega), if_neg (by omega),
      if_pos (by omega), Step.emit]
    rw [scan_complete _ ((next_tail 1 (Nat.mod_lt _ (by omega))).trans (if_pos (by omega))),
      show (v / 64 % 32 + 192 - 192) * 64 + v % 64 = v by omega, same]
  · rw [scan_first, first_ofNat (by omega), if_neg (by omega), if_neg (by omega),
      if_neg (by omega), if_pos (by omega), Step.emit]
    rw [scan_more _ ((next_ofNat ?_ ?_).trans (if_neg (by omega))),
      scan_complete _ ((next_tail 1 (Nat.mod_lt _ (by omega))).trans (if_pos (by omega))),
      show ((v / 4096 % 16 + 224 - 224) * 64 + v / 64 % 64) * 64 + v % 64 = v by omega, same]
    · split
      · simp
        omega
      · simp
    · split <;> (simp; omega)
  · rw [scan_first, first_ofNat (by omega), if_neg (by omega), if_neg (by omega),
      if_neg (by omega), if_neg (by omega), if_pos (by omega), Step.emit]
    rw [scan_more _ ((next_ofNat ?_ ?_).trans (if_neg (by omega))),
      scan_more _ ((next_tail 2 (Nat.mod_lt _ (by omega))).trans (if_neg (by omega))),
      scan_complete _ ((next_tail 1 (Nat.mod_lt _ (by omega))).trans (if_pos (by omega))),
      show (((v / 262144 % 8 + 240 - 240) * 64 + v / 4096 % 64) * 64 + v / 64 % 64) * 64
        + v % 64 = v by omega, same]
    · split
      · simp
        omega
      · simp
    · split <;> (simp; omega)

/-- A text is read back, whatever follows it. -/
theorem scan_encode : ∀ (chars : List Char) (rest : List UInt8),
    scan none (encode chars ++ rest) = chars.map some ++ scan none rest
  | [], _ => rfl
  | c :: chars, rest => by
    rw [encode_cons, List.append_assoc, scan_encodeChar, scan_encode chars rest]
    rfl

theorem scan_bytes (s : String) : scan none (bytes s) = s.toList.map some := by
  have := scan_encode s.toList []
  simpa [scan, bytes] using this

@[simp] theorem decode?_bytes (s : String) : decode? (bytes s) = some s := by
  simp [decode?, scan_bytes]

/-- A text has no faults for which a substitute would stand. -/
@[simp] theorem decodeLossy_bytes (s : String) : decodeLossy (bytes s) = s := by
  simp [decodeLossy, scan_bytes, Function.comp_def]

/-! ## What is read was written -/

theorem toNat_val_ofNat {n : Nat} (scalar : n < 0xD800 ∨ (0xDFFF < n ∧ n < 0x110000)) :
    (Char.ofNat n).val.toNat = n := by
  have valid : n.isValidChar := scalar
  rw [Char.ofNat, dif_pos valid]
  rfl

/-- The bytes of the character with a given scalar value. -/
theorem encodeChar_ofNat {n : Nat} (scalar : n < 0xD800 ∨ (0xDFFF < n ∧ n < 0x110000)) :
    String.utf8EncodeChar (Char.ofNat n) =
      if n ≤ 127 then [UInt8.ofNat n]
      else if n ≤ 2047 then [UInt8.ofNat (n / 64 % 32 + 192), UInt8.ofNat (n % 64 + 128)]
      else if n ≤ 65535 then
        [UInt8.ofNat (n / 4096 % 16 + 224), UInt8.ofNat (n / 64 % 64 + 128),
          UInt8.ofNat (n % 64 + 128)]
      else
        [UInt8.ofNat (n / 262144 % 8 + 240), UInt8.ofNat (n / 4096 % 64 + 128),
          UInt8.ofNat (n / 64 % 64 + 128), UInt8.ofNat (n % 64 + 128)] := by
  simp only [String.utf8EncodeChar, toNat_val_ofNat scalar]

/-- A begun character without a fault goes on with a byte within its bounds. -/
theorem exists_tail {owed bits : Nat} {low high : UInt8} {stored : List UInt8}
    (sound : (scan (some ⟨owed, low, high, bits⟩) stored).all Option.isSome = true)
    (atLeast : 128 ≤ low.toNat) (atMost : high.toNat ≤ 191) :
    ∃ n rest, stored = UInt8.ofNat (n + 128) :: rest ∧ n < 64 ∧ low.toNat ≤ n + 128
      ∧ n + 128 ≤ high.toNat := by
  cases stored with
  | nil => simp [scan] at sound
  | cons b rest =>
    by_cases inside : low.toNat ≤ b.toNat ∧ b.toNat ≤ high.toNat
    · refine ⟨b.toNat - 128, rest, ?_, by omega, by omega, by omega⟩
      rw [show b.toNat - 128 + 128 = b.toNat by omega, UInt8.ofNat_toNat]
    · have refused : (Begun.mk owed low high bits).next b = .refused := by
        simp only [Begun.next, UInt8.le_iff_toNat_le]
        exact if_neg inside
      simp [scan, refused] at sound

/-- The bytes of what was read when a character comes first. -/
theorem encode_filterMap_cons (c : Char) (chars : List (Option Char)) :
    encode ((some c :: chars).filterMap id)
      = String.utf8EncodeChar c ++ encode (chars.filterMap id) :=
  encode_cons c _

/-- Without a fault, writing what was read gives the bytes back. -/
theorem encode_scan (stored : List UInt8) (sound : (scan none stored).all Option.isSome = true) :
    encode ((scan none stored).filterMap id) = stored := by
  match stored with
  | [] => rfl
  | b :: rest =>
    have bound := b.toNat_lt
    obtain ⟨n, hn⟩ : ∃ n, n = b.toNat := ⟨_, rfl⟩
    have same : b = UInt8.ofNat n := by rw [hn, UInt8.ofNat_toNat]
    subst same
    rw [scan_first, first_ofNat (by omega)] at sound ⊢
    by_cases one : n < 0x80
    · rw [if_pos one, Step.emit] at sound ⊢
      simp only [List.all_cons, Option.isSome_some, Bool.true_and] at sound
      rw [encode_filterMap_cons, encode_scan rest sound, encodeChar_ofNat (by omega), if_pos (by omega)]
      rfl
    rw [if_neg one] at sound ⊢
    by_cases stray : n < 0xC2
    · rw [if_pos stray] at sound
      simp [Step.emit] at sound
    rw [if_neg stray] at sound ⊢
    by_cases two : n < 0xE0
    · rw [if_pos two, Step.emit] at sound ⊢
      obtain ⟨x, rest, rfl, hx, -, -⟩ := exists_tail sound (by decide) (by decide)
      rw [scan_complete _ ((next_tail 1 hx).trans (if_pos (by omega)))] at sound ⊢
      simp only [List.all_cons, Option.isSome_some, Bool.true_and] at sound
      rw [encode_filterMap_cons, encode_scan rest sound, encodeChar_ofNat (by omega), if_neg (by omega),
        if_pos (by omega), show ((n - 0xC0) * 64 + x) / 64 % 32 + 192 = n by omega,
        show ((n - 0xC0) * 64 + x) % 64 = x by omega]
      rfl
    rw [if_neg two] at sound ⊢
    by_cases three : n < 0xF0
    · rw [if_pos three, Step.emit] at sound ⊢
      obtain ⟨x, rest, rfl, hx, low, high⟩ :=
        exists_tail sound (by split <;> simp) (by split <;> simp)
      rw [scan_more _ ((next_ofNat low high).trans (if_neg (by omega)))] at sound ⊢
      obtain ⟨y, rest, rfl, hy, -, -⟩ := exists_tail sound (by decide) (by decide)
      rw [scan_complete _ ((next_tail 1 hy).trans (if_pos (by omega)))] at sound ⊢
      simp only [List.all_cons, Option.isSome_some, Bool.true_and] at sound
      have overlong : n = 0xE0 → 0xA0 ≤ x + 128 := fun h => by simpa [h] using low
      have surrogate : n = 0xED → x + 128 ≤ 0x9F := fun h => by simpa [h] using high
      rw [encode_filterMap_cons, encode_scan rest sound, encodeChar_ofNat (by omega), if_neg (by omega),
        if_neg (by omega), if_pos (by omega),
        show (((n - 0xE0) * 64 + x) * 64 + y) / 4096 % 16 + 224 = n by omega,
        show (((n - 0xE0) * 64 + x) * 64 + y) / 64 % 64 = x by omega,
        show (((n - 0xE0) * 64 + x) * 64 + y) % 64 = y by omega]
      rfl
    rw [if_neg three] at sound ⊢
    by_cases four : n < 0xF5
    · rw [if_pos four, Step.emit] at sound ⊢
      obtain ⟨x, rest, rfl, hx, low, high⟩ :=
        exists_tail sound (by split <;> simp) (by split <;> simp)
      rw [scan_more _ ((next_ofNat low high).trans (if_neg (by omega)))] at sound ⊢
      obtain ⟨y, rest, rfl, hy, -, -⟩ := exists_tail sound (by decide) (by decide)
      rw [scan_more _ ((next_tail 2 hy).trans (if_neg (by omega)))] at sound ⊢
      obtain ⟨z, rest, rfl, hz, -, -⟩ := exists_tail sound (by decide) (by decide)
      rw [scan_complete _ ((next_tail 1 hz).trans (if_pos (by omega)))] at sound ⊢
      simp only [List.all_cons, Option.isSome_some, Bool.true_and] at sound
      have overlong : n = 0xF0 → 0x90 ≤ x + 128 := fun h => by simpa [h] using low
      have tooLarge : n = 0xF4 → x + 128 ≤ 0x8F := fun h => by simpa [h] using high
      rw [encode_filterMap_cons, encode_scan rest sound, encodeChar_ofNat (by omega), if_neg (by omega),
        if_neg (by omega), if_neg (by omega),
        show ((((n - 0xF0) * 64 + x) * 64 + y) * 64 + z) / 262144 % 8 + 240 = n by omega,
        show ((((n - 0xF0) * 64 + x) * 64 + y) * 64 + z) / 4096 % 64 = x by omega,
        show ((((n - 0xF0) * 64 + x) * 64 + y) * 64 + z) / 64 % 64 = y by omega,
        show ((((n - 0xF0) * 64 + x) * 64 + y) * 64 + z) % 64 = z by omega]
      rfl
    rw [if_neg four] at sound
    simp [Step.emit] at sound
termination_by stored.length

/-- A byte list is a text exactly if it is the stored form of one. -/
theorem decode?_eq_some_iff {stored : List UInt8} {s : String} :
    decode? stored = some s ↔ stored = bytes s := by
  constructor
  · intro h
    simp only [decode?] at h
    split at h
    · next sound =>
      cases h
      rw [bytes, String.toList_ofList]
      exact (encode_scan stored sound).symm
    · cases h
  · rintro rfl
    exact decode?_bytes s

/-- Bytes that are read at all are a stored text. -/
theorem exists_text_of_decode {stored : List UInt8} (h : decode? stored ≠ none) :
    ∃ s, stored = bytes s := by
  obtain ⟨s, read⟩ := Option.ne_none_iff_exists'.mp h
  exact ⟨s, decode?_eq_some_iff.mp read⟩

/-- No two texts have one stored form. -/
theorem bytes_injective {s t : String} (h : bytes s = bytes t) : s = t := by
  have read := decode?_bytes s
  rw [h, decode?_bytes] at read
  exact (Option.some.inj read).symm

end Scriptlet.Text
