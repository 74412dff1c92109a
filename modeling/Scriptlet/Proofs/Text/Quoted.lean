import Scriptlet.Proofs.Text.Line
import Scriptlet.Text.Quoted

/-!
# Reading quoted texts

A quoted text can be read back in one way only. The ways to write a character are a prefix code: of
two that begin one and the same text neither is longer (`Escaped.unique`). A character that stands for
itself is no backslash, the letter behind a backslash tells which character is meant, and a number
ends at its brace. No way to write a character begins with a quote, so the closing quote is found
too (`flatMap_escaped_unique`).

Nothing more is used of `escape` than that it writes each character in one of these ways, whichever
characters it takes to be visible.
-/

namespace Scriptlet.Text

/-! ## Numbers -/

/-- Two lists with one separator in common are cut alike where it comes first. -/
theorem append_cons_unique {α : Type} [DecidableEq α] {separator : α} {front front' : List α}
    {rest rest' : List α} (free : separator ∉ front) (free' : separator ∉ front')
    (same : front ++ separator :: rest = front' ++ separator :: rest') :
    front = front' ∧ rest = rest' := by
  have pieces := congrArg (split separator) same
  rw [split_append free, split_append free'] at pieces
  have fronts := (List.cons.inj pieces).1
  rw [fronts] at same
  exact ⟨fronts, (List.cons.inj (List.append_cancel_left same)).2⟩

/-- No two numbers have the same digits. -/
theorem toDigits_injective {m n : Nat} (same : Nat.toDigits 16 m = Nat.toDigits 16 n) : m = n := by
  have digit : ∀ d < 16, ∀ e < 16, Nat.digitChar d = Nat.digitChar e → d = e := by decide
  -- a number of one digit is not among those of more
  have short : ∀ k l, k < 16 → 16 ≤ l → Nat.toDigits 16 k ≠ Nat.toDigits 16 l := by
    intro k l one more same
    have lengths := congrArg List.length same
    rw [Nat.toDigits_of_lt_base one, Nat.toDigits_of_base_le (by decide) more,
      List.length_append, List.length_singleton, List.length_singleton] at lengths
    have pos : 0 < (Nat.toDigits 16 (l / 16)).length := Nat.length_toDigits_pos
    omega
  by_cases hm : m < 16 <;> by_cases hn : n < 16
  · rw [Nat.toDigits_of_lt_base hm, Nat.toDigits_of_lt_base hn] at same
    exact digit m hm n hn (List.cons.inj same).1
  · exact absurd same (short m n hm (Nat.le_of_not_lt hn))
  · exact absurd same.symm (short n m hn (Nat.le_of_not_lt hm))
  · rw [Nat.toDigits_of_base_le (by decide) (Nat.le_of_not_lt hm),
      Nat.toDigits_of_base_le (by decide) (Nat.le_of_not_lt hn)] at same
    obtain ⟨front, last⟩ := List.append_inj' same rfl
    have high := toDigits_injective front
    have low := digit _ (Nat.mod_lt m (by decide)) _ (Nat.mod_lt n (by decide))
      (List.cons.inj last).1
    omega
termination_by m
decreasing_by omega

/-! ## Characters -/

/-- The characters with a short escape, and the letter that stands for each behind a backslash. -/
def shortEscapes : List (Char × Char) :=
  [('\x00', '0'), ('\t', 't'), ('\r', 'r'), ('\n', 'n'), ('\\', '\\'), ('"', '"')]

/-- The ways to write a character between quotes. A quote, a backslash and a newline do not stand
for themselves. -/
inductive Escaped : Char → List Char → Prop where
  | plain {c : Char} (noQuote : c ≠ '"') (noMark : c ≠ '\\') (noBreak : c ≠ '\n') : Escaped c [c]
  | short {c letter : Char} (listed : (c, letter) ∈ shortEscapes) : Escaped c ['\\', letter]
  | number (c : Char) : Escaped c (numbered c)

theorem escaped_escape (c : Char) : Escaped c (escape c) := by
  unfold escape
  split
  · next h => exact h ▸ .short (by decide)
  split
  · next h => exact h ▸ .short (by decide)
  split
  · next h => exact h ▸ .short (by decide)
  split
  · next h => exact h ▸ .short (by decide)
  · next noBreak =>
    split
    · next h => rcases h with rfl | rfl <;> exact .short (by decide)
    · next visible =>
      split
      · exact .number c
      · exact .plain (fun h => visible (.inr h)) (fun h => visible (.inl h)) noBreak

/-- No character is written with a quote in front. -/
theorem Escaped.exists_cons {c : Char} {written : List Char} (h : Escaped c written) :
    ∃ first rest, written = first :: rest ∧ first ≠ '"' := by
  cases h with
  | plain noQuote => exact ⟨c, [], rfl, noQuote⟩
  | short => exact ⟨_, _, rfl, by decide⟩
  | number => exact ⟨_, _, rfl, by decide⟩

/-- The digits of two numbers end at the same brace. -/
theorem numbered_unique {c d : Char} {rest rest' : List Char}
    (same : numbered c ++ rest = numbered d ++ rest') : c = d ∧ rest = rest' := by
  have free : ∀ n, '\x7d' ∉ Nat.toDigits 16 n := fun n hm =>
    ne_of_mem_toDigits (by decide) n _ hm rfl
  have behind : Nat.toDigits 16 c.toNat ++ '\x7d' :: rest
      = Nat.toDigits 16 d.toNat ++ '\x7d' :: rest' := by
    simpa [numbered] using same
  obtain ⟨digits, rests⟩ := append_cons_unique (free _) (free _) behind
  exact ⟨Char.toNat_inj.mp (toDigits_injective digits), rests⟩

/-- **What is written at the front of a text tells the character**, and where the rest begins. -/
theorem Escaped.unique {c d : Char} {written written' rest rest' : List Char}
    (h : Escaped c written) (h' : Escaped d written')
    (same : written ++ rest = written' ++ rest') : c = d ∧ rest = rest' := by
  have letters : ∀ p ∈ shortEscapes, p.2 ≠ 'u' ∧ ∀ q ∈ shortEscapes, p.2 = q.2 → p.1 = q.1 := by
    decide
  cases h with
  | plain _ noMark =>
    cases h' with
    | plain => exact List.cons.inj same
    | short | number => exact absurd (List.cons.inj same).1 noMark
  | short listed =>
    cases h' with
    | plain _ noMark => exact absurd (List.cons.inj same).1.symm noMark
    | short listed' =>
      obtain ⟨letter, rests⟩ := List.cons.inj (List.cons.inj same).2
      exact ⟨(letters _ listed).2 _ listed' letter, rests⟩
    | number =>
      exact absurd (List.cons.inj (List.cons.inj same).2).1 (letters _ listed).1
  | number =>
    cases h' with
    | plain _ noMark => exact absurd (List.cons.inj same).1.symm noMark
    | short listed' =>
      exact absurd (List.cons.inj (List.cons.inj same).2).1.symm (letters _ listed').1
    | number => exact numbered_unique same

/-! ## Texts -/

/-- Characters written one after the other are found again, up to the quote behind them. -/
theorem flatMap_escaped_unique {write : Char → List Char} (written : ∀ c, Escaped c (write c)) :
    ∀ {chars chars' rest rest' : List Char},
      chars.flatMap write ++ '"' :: rest = chars'.flatMap write ++ '"' :: rest' →
        chars = chars' ∧ rest = rest'
  | [], [], _, _, same => ⟨rfl, (List.cons.inj same).2⟩
  | [], d :: chars', rest, rest', same => by
    obtain ⟨first, more, begins, noQuote⟩ := (written d).exists_cons
    rw [List.flatMap_cons, begins] at same
    exact absurd (List.cons.inj same).1.symm noQuote
  | c :: chars, [], rest, rest', same => by
    obtain ⟨first, more, begins, noQuote⟩ := (written c).exists_cons
    rw [List.flatMap_cons, begins] at same
    exact absurd (List.cons.inj same).1 noQuote
  | c :: chars, d :: chars', rest, rest', same => by
    rw [List.flatMap_cons, List.flatMap_cons, List.append_assoc, List.append_assoc] at same
    obtain ⟨rfl, later⟩ := (written c).unique (written d) same
    obtain ⟨rfl, rests⟩ := flatMap_escaped_unique written later
    exact ⟨rfl, rests⟩

/-- **No two texts are quoted alike.** -/
theorem quote_injective {s t : String} (same : quote s = quote t) : s = t := by
  have chars := congrArg String.toList same
  rw [quote, quote, String.toList_ofList, String.toList_ofList] at chars
  exact String.toList_inj.mp
    (flatMap_escaped_unique escaped_escape (List.cons.inj chars).2).1

end Scriptlet.Text
