import Scriptlet.Text.Unprintable

/-!
# Quoted texts

A text between double quotes, on one line and in visible characters. Six characters have a short
escape of their own (`\0`, `\t`, `\r`, `\n`, `\\`, `\"`), and a character without a visible shape is
written by its number in lower-case hexadecimal. Everything else stands for itself.
-/

namespace Scriptlet.Text

/-- A character by its number, such as `\u{200b}`. -/
def numbered (c : Char) : List Char :=
  ['\\', 'u', '\x7b'] ++ Nat.toDigits 16 c.toNat ++ ['\x7d']

/-- How a character is written between quotes. -/
def escape (c : Char) : List Char :=
  if c = '\x00' then ['\\', '0']
  else if c = '\t' then ['\\', 't']
  else if c = '\r' then ['\\', 'r']
  else if c = '\n' then ['\\', 'n']
  else if c = '\\' ∨ c = '"' then ['\\', c]
  else if isUnprintable c then numbered c
  else [c]

/-- A text between quotes. -/
def quote (s : String) : String := String.ofList ('"' :: s.toList.flatMap escape ++ ['"'])

/-! ## One line -/

/-- A character that is no digit is in no number. -/
theorem ne_of_mem_toDigits {e : Char} (other : ∀ d < 16, Nat.digitChar d ≠ e) (n : Nat) :
    ∀ c ∈ Nat.toDigits 16 n, c ≠ e := by
  by_cases h : n < 16
  · rw [Nat.toDigits_of_lt_base h, List.forall_mem_singleton]
    exact other n h
  · rw [Nat.toDigits_of_base_le (by decide) (Nat.le_of_not_lt h), List.forall_mem_append,
      List.forall_mem_singleton]
    exact ⟨ne_of_mem_toDigits other (n / 16), other _ (Nat.mod_lt n (by decide))⟩
termination_by n
decreasing_by omega

theorem ne_newline_of_mem_escape (c : Char) : ∀ d ∈ escape c, d ≠ '\n' := by
  have hex := ne_of_mem_toDigits (e := '\n') (by decide) c.toNat
  unfold escape
  repeat' split
  all_goals grind [numbered]

/-- There is no newline in a quoted text. -/
theorem newline_not_mem_quote (s : String) : '\n' ∉ (quote s).toList := by
  rw [quote, String.toList_ofList]
  intro h
  simp only [List.cons_append, List.mem_cons, List.mem_append, List.mem_flatMap, List.not_mem_nil,
    or_false] at h
  rcases h with h | ⟨c, -, h⟩ | h
  · cases h
  · exact ne_newline_of_mem_escape c _ h rfl
  · cases h

end Scriptlet.Text
