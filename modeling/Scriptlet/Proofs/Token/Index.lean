import Scriptlet.Proofs.Token.Tiling

/-!
# Tokens by number

A cursor hands its tokens out one by one and then the end of the source for ever, so every number
has a token (`tokenAt`) and defects seen in it (`defectsAt`). Handing out `n` tokens takes the first
`n` items off (`items_skip`).

`Used text n taken c` says how a cursor on a text was used before someone gets it: `n` tokens of the
text were handed out, and the defects of the first `taken` of them were taken. What the cursor still
holds are the defects of the others (`Used.defects_eq`).
-/

namespace Scriptlet.Cursor

/-! ## Handing out tokens to nobody -/

/-- The last of several tokens may be handed out apart. -/
theorem skip_succ (n : Nat) (c : Cursor) : c.skip (n + 1) = (c.skip n).next.2 := by
  induction n generalizing c with
  | zero => rfl
  | succ n ih => rw [skip, ih, skip]

@[simp] theorem stop_skip (n : Nat) (c : Cursor) : (c.skip n).stop = c.stop := by
  induction n with
  | zero => rfl
  | succ n ih => rw [skip_succ, stop_next, ih]

theorem items_next (c : Cursor) : c.next.2.items = c.items.tail := by
  by_cases h : c.next.1.kind = .eof
  · rw [items_of_eof h, items_next_of_eof h, List.tail_nil]
  · rw [items_of_ne_eof h, List.tail_cons]

theorem items_skip (n : Nat) (c : Cursor) : (c.skip n).items = c.items.drop n := by
  induction n with
  | zero => rw [skip, List.drop_zero]
  | succ n ih => rw [skip_succ, items_next, ih, List.tail_drop]

/-! ## Numbers of tokens -/

/-- The token that is handed out behind `n` others. -/
def tokenAt (c : Cursor) (n : Nat) : Token := (c.skip n).next.1

/-- The defects seen in that token. -/
def defectsAt (c : Cursor) (n : Nat) : List Defect := (c.skip n).found

/-- The defects of the tokens from number `m` on, those from number `n` on left out. -/
def defectsIn (c : Cursor) (m n : Nat) : List Defect :=
  (List.range' m (n - m)).flatMap c.defectsAt

/-- A number whose token is not the end is that of a token of the text. -/
theorem getElem?_tokens {text : String} {n : Nat}
    (notEnd : ((ofText text).tokenAt n).kind ≠ .eof) :
    (tokens text)[n]? = some ((ofText text).tokenAt n) := by
  rw [tokenAt, next_skip, List.getD_eq_getElem?_getD] at notEnd ⊢
  unfold tokens
  cases h : (ofText text).remaining[n]? with
  | none =>
    rw [h] at notEnd
    exact absurd rfl notEnd
  | some t => rfl

/-- Only the end has several numbers. -/
theorem tokenAt_inj {text : String} {m n : Nat}
    (same : (ofText text).tokenAt m = (ofText text).tokenAt n)
    (notEnd : ((ofText text).tokenAt m).kind ≠ .eof) : m = n := by
  have first := getElem?_tokens notEnd
  have second := getElem?_tokens (same ▸ notEnd)
  have inside : m < (tokens text).length := (List.getElem?_eq_some_iff.mp first).1
  exact (List.getElem?_inj inside (nodup_tokens text)).mp (by rw [first, second, same])

@[simp] theorem defectsIn_self (c : Cursor) (n : Nat) : c.defectsIn n n = [] := by
  simp [defectsIn]

theorem defectsIn_succ (c : Cursor) {m n : Nat} (h : m ≤ n) :
    c.defectsIn m (n + 1) = c.defectsIn m n ++ c.defectsAt n := by
  have next : m + (n - m) = n := by omega
  rw [defectsIn, Nat.succ_sub h, List.range'_1_concat, next, List.flatMap_append,
    List.flatMap_singleton]
  rfl

theorem defectsIn_append (c : Cursor) {l m n : Nat} (hl : l ≤ m) (hm : m ≤ n) :
    c.defectsIn l m ++ c.defectsIn m n = c.defectsIn l n := by
  have next : l + (m - l) = m := by omega
  have all : m - l + (n - m) = n - l := by omega
  rw [defectsIn, defectsIn, defectsIn, ← List.flatMap_append, ← all, ← List.range'_append_1, next]

theorem defectsAt_eq (c : Cursor) (n : Nat) :
    c.defectsAt n = c.items[n]?.toList.flatMap Item.defects := by
  have same : c.items[n]? = (c.skip n).items.head? := by rw [items_skip, List.head?_drop]
  rw [same, defectsAt]
  by_cases h : (c.skip n).next.1.kind = .eof
  · rw [items_of_eof h, found_of_eof h]
    rfl
  · rw [items_of_ne_eof h, List.head?_cons, Option.toList_some, List.flatMap_singleton]

theorem defectsIn_zero (c : Cursor) (n : Nat) :
    c.defectsIn 0 n = (c.items.take n).flatMap Item.defects := by
  induction n with
  | zero => rfl
  | succ n ih =>
    rw [defectsIn_succ c (Nat.zero_le n), ih, List.take_add_one, List.flatMap_append, defectsAt_eq]

/-- The defects of several tokens are those seen in their items. -/
theorem defectsIn_eq (c : Cursor) {m n : Nat} (h : m ≤ n) :
    c.defectsIn m n = ((c.items.take n).drop m).flatMap Item.defects := by
  have parts := defectsIn_append c (Nat.zero_le m) h
  have first : (c.items.take n).take m = c.items.take m := by
    rw [List.take_take, Nat.min_eq_left h]
  rw [defectsIn_zero, defectsIn_zero, ← List.take_append_drop m (c.items.take n),
    List.flatMap_append, first] at parts
  exact List.append_cancel_left parts

/-- Behind the last token all defects were seen. -/
theorem defectsIn_of_length_le {c : Cursor} {n : Nat} (h : c.items.length ≤ n) :
    c.defectsIn 0 n = c.items.flatMap Item.defects := by
  rw [defectsIn_zero, List.take_of_length_le h]

/-- Whoever takes all tokens out gets all defects. -/
theorem defects_drain (c : Cursor) :
    c.drain.2.defects = c.defects ++ c.items.flatMap Item.defects := by
  induction c using items_induction with
  | eof c h =>
    rw [drain, if_pos h, items_of_eof h, List.flatMap_nil, next_eq, found_of_eof h]
  | step c h ih =>
    rw [drain, if_neg h, items_of_ne_eof h, List.flatMap_cons, ← List.append_assoc]
    have kept : c.next.2.defects = c.defects ++ c.found := by rw [next_eq]
    rw [← kept]
    exact ih

/-! ## Cursors that were used before -/

/-- The cursor has handed out `n` tokens of the text, and the defects of the first `taken` of them
are with someone else. -/
inductive Used (text : String) : Nat → Nat → Cursor → Prop where
  | fresh : Used text 0 0 (ofText text)
  | next {n taken : Nat} {c : Cursor} (h : Used text n taken c) : Used text (n + 1) taken c.next.2
  | takeDefects {n taken : Nat} {c : Cursor} (h : Used text n taken c) :
    Used text n n c.takeDefects.2

namespace Used

variable {text : String} {n taken : Nat} {c : Cursor}

theorem le (h : Used text n taken c) : taken ≤ n := by
  induction h with
  | fresh => exact Nat.le_refl 0
  | next _ ih => exact Nat.le_succ_of_le ih
  | takeDefects _ _ => exact Nat.le_refl _

/-- But for the defects it holds, the cursor is the one behind `n` tokens. -/
theorem forget_eq (h : Used text n taken c) : c.forget = ((ofText text).skip n).forget := by
  induction h with
  | fresh => rfl
  | next _ ih => rw [forget_next_snd, ih, ← forget_next_snd, skip_succ]
  | takeDefects _ ih => exact ih

theorem stop_eq (h : Used text n taken c) : c.stop = (ofText text).stop := by
  rw [← forget_stop, h.forget_eq, forget_stop, stop_skip]

theorem items_eq (h : Used text n taken c) : c.items = (ofText text).items.drop n := by
  rw [← items_forget, h.forget_eq, items_forget, items_skip]

/-- The cursor holds the defects that were not taken. -/
theorem defects_eq (h : Used text n taken c) : c.defects = (ofText text).defectsIn taken n := by
  induction h with
  | fresh => rfl
  | @next n taken c h ih =>
    have found : c.found = (ofText text).defectsAt n := by
      rw [found, h.forget_eq]
      rfl
    rw [next_eq, ih, found, ← defectsIn_succ _ h.le]
  | @takeDefects n taken c _ _ => exact (defectsIn_self _ n).symm

end Used

end Scriptlet.Cursor
