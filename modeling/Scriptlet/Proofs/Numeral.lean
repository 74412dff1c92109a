import Scriptlet.Numeral

/-!
# What a numeral stands for

A run of digits stands for its decimal value, however long it is and with any number of zeros in
front. Reading it gives that value or, above the greatest one, the fault that it is too large
(`read_digits`). A value that is not below zero is written as the digits of it, so it is read back
(`read_write`). What is written of a run of digits that was read is the run without the zeros in
front (`write_decimal`).
-/

namespace Scriptlet.Numeral

/-- The value of a run of digits. -/
def decimal (digits : String) : Nat := Nat.ofDigitChars 10 digits.toList 0

/-! ## Reading digits -/

theorem digit?_eq {c : Char} (h : c.isDigit = true) : digit? c = some (c.toNat - '0'.toNat) := by
  rw [Char.isDigit, Bool.and_eq_true, decide_eq_true_eq, decide_eq_true_eq] at h
  exact if_pos h

/-- Digits behind a value do not make it less. -/
theorem le_ofDigitChars : ∀ (digits : List Char) (value : Nat),
    value ≤ Nat.ofDigitChars 10 digits value
  | [], value => by simp
  | c :: digits, value => by
    rw [Nat.ofDigitChars_cons]
    have := le_ofDigitChars digits (10 * value + (c.toNat - '0'.toNat))
    omega

/-- Reading stops with the first digit that leads above the bound, and then the value of all of
them is above it. -/
theorem magnitude_eq {bound : Nat} {excess : Fault} : ∀ (digits : List Char) (value : Nat),
    (∀ c ∈ digits, c.isDigit = true) → value ≤ bound → magnitude bound excess value digits
      = if Nat.ofDigitChars 10 digits value ≤ bound then .ok (Nat.ofDigitChars 10 digits value)
        else .error excess
  | [], value, _, low => by
    rw [Nat.ofDigitChars_nil, if_pos low, magnitude]
  | c :: digits, value, h, low => by
    have later := fun x hx => h x (List.mem_cons_of_mem c hx)
    rw [magnitude, digit?_eq (h c List.mem_cons_self), Nat.ofDigitChars_cons, Nat.mul_comm 10]
    dsimp only
    split
    · next low => exact magnitude_eq digits _ later low
    · next high =>
      have grows := le_ofDigitChars digits (value * 10 + (c.toNat - '0'.toNat))
      rw [if_neg (by omega)]

/-- A run of digits has no sign. -/
theorem read_eq_upward {text : String} (nonempty : text ≠ "")
    (h : ∀ c ∈ text.toList, c.isDigit = true) : read text = upward text.toList := by
  unfold read
  split
  · next none => exact absurd (String.toList_eq_nil_iff.mp none) nonempty
  · next digits sign =>
    rw [sign] at h
    exact absurd (h '+' List.mem_cons_self) (by decide)
  · next digits sign =>
    rw [sign] at h
    exact absurd (h '-' List.mem_cons_self) (by decide)
  · rfl

/-- **A run of digits is read as its decimal value**, or is too large. -/
theorem read_digits {text : String} (nonempty : text ≠ "")
    (h : ∀ c ∈ text.toList, c.isDigit = true) : read text
      = if decimal text ≤ greatest then .ok (Int64.ofNat (decimal text)) else .error .tooLarge := by
  have notEmpty : text.toList.isEmpty = false := by
    rw [List.isEmpty_eq_false_iff]
    exact fun none => nonempty (String.toList_eq_nil_iff.mp none)
  rw [read_eq_upward nonempty h, upward, notEmpty, if_neg Bool.false_ne_true,
    magnitude_eq _ 0 h (Nat.zero_le _), decimal]
  split
  · rfl
  · rfl

/-- In range a value is kept as it is. -/
theorem toInt_ofNat {n : Nat} (h : n ≤ greatest) : (Int64.ofNat n).toInt = n :=
  Int64.toInt_ofNat_of_lt (by rw [greatest] at h; omega)

/-! ## Writing -/

/-- A value that is not below zero is written without a sign. -/
theorem toList_write {value : Int64} (h : 0 ≤ value) :
    (write value).toList = Nat.toDigits 10 value.toNatClampNeg := by
  rw [write, ← Int64.cast_toNatClampNeg value h]
  exact Nat.toList_repr

theorem isDigit_of_mem_write {value : Int64} (h : 0 ≤ value) :
    ∀ c ∈ (write value).toList, c.isDigit = true := by
  intro c hc
  rw [toList_write h] at hc
  exact Nat.isDigit_of_mem_toDigits (by decide) (by decide) hc

theorem write_ne_empty {value : Int64} (h : 0 ≤ value) : write value ≠ "" := by
  intro none
  have digits := toList_write h
  rw [none] at digits
  exact Nat.toDigits_ne_nil digits.symm

theorem decimal_write {value : Int64} (h : 0 ≤ value) :
    decimal (write value) = value.toNatClampNeg := by
  rw [decimal, toList_write h, Nat.ofDigitChars_ten_toDigits]

theorem decimal_write_le {value : Int64} (h : 0 ≤ value) : decimal (write value) ≤ greatest := by
  rw [decimal_write h]
  exact Nat.le_of_lt_succ value.toNatClampNeg_lt

theorem ofNat_decimal_write {value : Int64} (h : 0 ≤ value) :
    Int64.ofNat (decimal (write value)) = value := by
  rw [decimal_write h, Int64.ofNat_toNatClampNeg value h]

/-- What was written is read back. -/
theorem read_write {value : Int64} (h : 0 ≤ value) : read (write value) = .ok value := by
  rw [read_digits (write_ne_empty h) (isDigit_of_mem_write h), if_pos (decimal_write_le h),
    ofNat_decimal_write h]

/-! ## Zeros in front -/

/-- The digits without zeros in front. The last digit stays, whatever it is. -/
def unpad : List Char → List Char
  | [] => []
  | [c] => [c]
  | c :: d :: digits => if c = '0' then unpad (d :: digits) else c :: d :: digits

/-- The same for a text. -/
def unpadded (digits : String) : String := String.ofList (unpad digits.toList)

/-- Whether there is a zero in front of a digit. -/
def Padded (digits : String) : Prop :=
  1 < digits.toList.length ∧ digits.toList.head? = some '0'

instance (digits : String) : Decidable (Padded digits) := inferInstanceAs (Decidable (_ ∧ _))

theorem length_unpad_le (digits : List Char) : (unpad digits).length ≤ digits.length := by
  fun_induction unpad digits with
  | case1 | case2 | case4 => exact Nat.le_refl _
  | case3 d digits ih => exact Nat.le_succ_of_le ih

/-- Only a run with a zero in front loses a digit. -/
theorem unpadded_eq_iff {digits : String} : unpadded digits = digits ↔ ¬ Padded digits := by
  rw [unpadded, ← String.toList_inj, String.toList_ofList, Padded]
  match digits.toList with
  | [] | [_] => simp [unpad]
  | c :: d :: rest =>
    rw [unpad]
    split
    · next zero =>
      have shorter := length_unpad_le (d :: rest)
      refine iff_of_false (fun same => ?_) (not_not_intro ⟨by simp, by rw [zero]; rfl⟩)
      rw [same, List.length_cons] at shorter
      omega
    · next other =>
      exact iff_of_true rfl fun padded => other (Option.some.inj padded.2)

/-- A digit is the digit of its value. -/
theorem toDigits_digit {c : Char} (h : c.isDigit = true) :
    c.toNat - '0'.toNat < 10 ∧ Nat.toDigits 10 (c.toNat - '0'.toNat) = [c] := by
  rw [Char.isDigit, Bool.and_eq_true, decide_eq_true_eq, decide_eq_true_eq] at h
  have low : '0'.toNat ≤ c.toNat := h.1
  have high : c.toNat ≤ '9'.toNat := h.2
  have zero : '0'.toNat = 48 := rfl
  have nine : '9'.toNat = 57 := rfl
  have small : c.toNat - '0'.toNat < 10 := by omega
  refine ⟨small, ?_⟩
  rw [Nat.toDigits_of_lt_base small]
  refine congrArg (fun c => [c]) (Char.toNat_inj.mp ?_)
  rw [Nat.toNat_digitChar_of_lt_ten small]
  omega

/-- Digits behind those of a positive value are the digits of the value they lead to. -/
theorem toDigits_append_digits : ∀ (digits : List Char) {value : Nat}, 0 < value →
    (∀ c ∈ digits, c.isDigit = true) →
      Nat.toDigits 10 value ++ digits = Nat.toDigits 10 (Nat.ofDigitChars 10 digits value)
  | [], value, _, _ => by rw [List.append_nil, Nat.ofDigitChars_nil]
  | c :: digits, value, positive, h => by
    obtain ⟨small, digit⟩ := toDigits_digit (h c List.mem_cons_self)
    have later := fun x hx => h x (List.mem_cons_of_mem c hx)
    have one : Nat.toDigits 10 value ++ [c]
        = Nat.toDigits 10 (10 * value + (c.toNat - '0'.toNat)) := by
      rw [← digit, Nat.toDigits_append_toDigits (by decide) positive small]
    rw [Nat.ofDigitChars_cons, ← toDigits_append_digits digits (by omega) later, ← one,
      List.append_assoc, List.singleton_append]

/-- The digits of the value of a run are the run without the zeros in front. -/
theorem toDigits_ofDigitChars (digits : List Char) (nonempty : digits ≠ [])
    (h : ∀ c ∈ digits, c.isDigit = true) :
    Nat.toDigits 10 (Nat.ofDigitChars 10 digits 0) = unpad digits := by
  fun_induction unpad digits with
  | case1 => exact absurd rfl nonempty
  | case2 c =>
    rw [Nat.ofDigitChars_cons, Nat.ofDigitChars_nil, Nat.mul_zero, Nat.zero_add]
    exact (toDigits_digit (h c List.mem_cons_self)).2
  | case3 d digits ih =>
    rw [Nat.ofDigitChars_cons]
    exact ih nofun fun x hx => h x (List.mem_cons_of_mem _ hx)
  | case4 c d digits other =>
    obtain ⟨small, digit⟩ := toDigits_digit (h c List.mem_cons_self)
    have positive : 0 < c.toNat - '0'.toNat := by
      refine Nat.pos_of_ne_zero fun zero => other ?_
      rw [zero] at digit
      exact (List.head_eq_of_cons_eq digit).symm
    rw [Nat.ofDigitChars_cons, Nat.mul_zero, Nat.zero_add,
      ← toDigits_append_digits (d :: digits) positive fun x hx => h x (List.mem_cons_of_mem c hx),
      digit, List.singleton_append]

/-- **What is written of a run of digits in range is the run without the zeros in front.** -/
theorem write_decimal {text : String} (nonempty : text ≠ "")
    (h : ∀ c ∈ text.toList, c.isDigit = true) (low : decimal text ≤ greatest) :
    write (Int64.ofNat (decimal text)) = unpadded text := by
  have value := toInt_ofNat low
  have positive : 0 ≤ Int64.ofNat (decimal text) := by
    rw [Int64.le_iff_toInt_le, value]
    exact Int.natCast_nonneg _
  have kept : (Int64.ofNat (decimal text)).toNatClampNeg = decimal text := by
    rw [Int64.toNatClampNeg, value, Int.toNat_natCast]
  have notNil : text.toList ≠ [] := fun none => nonempty (String.toList_eq_nil_iff.mp none)
  rw [unpadded, ← String.toList_inj, String.toList_ofList, toList_write positive, kept, decimal,
    toDigits_ofDigitChars _ notNil h]

end Scriptlet.Numeral
