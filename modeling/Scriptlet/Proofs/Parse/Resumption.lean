import Scriptlet.Proofs.Parse.Placement
import Scriptlet.Proofs.Token.Index
import Scriptlet.Proofs.Token.Unclosed

/-!
# Reading on from the middle

A cursor keeps nothing of the tokens that it has handed out but its place, and their defects if
nobody took them. So whoever reads on from a cursor in the middle of a text finds the tokens, the
program and the problems of the bytes in front of it, as if they were a text of their own, only
further back (`parse_of_used`). The defects that nobody took come first.

At the end of the text a cursor is exhausted, which is more than its place, but there is nothing in
front of it either (`Within.atEnd`).
-/

namespace Scriptlet

open Text
open Cursor (Item Used)

namespace Cursor

/-! ## Places in a text -/

/-- The cursor stands in the text, and at its end if it is exhausted. -/
structure Within (text : String) (c : Cursor) : Prop where
  stored : ∃ passed, bytes text = passed ++ c.rest ∧ passed.length = c.offset
  atEnd : c.exhausted = true → c.rest = []

variable {text front back : String} {n taken : Nat} {c : Cursor}

theorem within_ofText (text : String) : Within text (ofText text) := ⟨⟨[], rfl, rfl⟩, nofun⟩

/-- Handing out a token, or the end, leaves the cursor in the text. -/
theorem Within.next (h : Within text c) : Within text c.next.2 where
  stored := stored_next h.stored
  atEnd := fun exhausted => by
    cases hc : c.exhausted with
    | true =>
      rw [next_of_exhausted hc]
      exact h.atEnd hc
    | false =>
      obtain ⟨gap, rest, l, same, -, -, recognized, step⟩ := next_of_open hc
      rw [step] at exhausted ⊢
      obtain ⟨rfl, -⟩ := recognized.of_eof (eq_of_beq exhausted)
      rw [past, same, List.append_nil]
      exact List.drop_of_length_le (Nat.le_add_right _ _)

theorem Used.within (h : Used text n taken c) : Within text c := by
  induction h with
  | fresh => exact within_ofText text
  | next _ ih => exact ih.next
  | takeDefects _ ih => exact ⟨ih.stored, ih.atEnd⟩

/-- The bytes in front of the cursor are those of the text behind its place. -/
theorem Within.rest_eq (h : Within (front ++ back) c) (place : c.offset = (bytes front).length) :
    c.rest = bytes back := by
  obtain ⟨passed, stored, hlen⟩ := h.stored
  rw [bytes_append] at stored
  exact (List.append_inj stored (by rw [hlen, place])).2.symm

/-- **What is in front of the cursor are the items of the text behind its place.** -/
theorem Within.items_eq (h : Within (front ++ back) c) (place : c.offset = (bytes front).length) :
    c.items = (ofText back).items.map (Item.respan (Span.shift (bytes front).length)) := by
  have rest := h.rest_eq place
  cases hc : c.exhausted with
  | true =>
    have none := h.atEnd hc
    rw [rest] at none
    have empty : (ofText back).rest = [] := none
    rw [items_of_rest_nil (h.atEnd hc), items_of_rest_nil empty, List.map_nil]
  | false =>
    have same : c.forget = (ofText back).moved (bytes front).length := by
      rw [forget, hc, rest, place]
      rfl
    rw [← items_moved, ← same, items_forget]

theorem Within.stop_eq (h : Within (front ++ back) c) (place : c.offset = (bytes front).length) :
    c.stop = (bytes front).length + (ofText back).stop := by
  rw [stop, h.rest_eq place, place]
  exact congrArg _ (Nat.zero_add _).symm

/-- **The tokens that are left are those of the text behind the place of the cursor.** -/
theorem Within.remaining_eq (h : Within (front ++ back) c)
    (place : c.offset = (bytes front).length) :
    c.remaining = (tokens back).map (Token.shift (bytes front).length) := by
  rw [Cursor.remaining_eq, h.items_eq place, tokens, Cursor.remaining_eq, List.map_map,
    List.map_map]
  rfl

/-- Every token that is still to be handed out, the end as often as it is asked for. -/
theorem Within.next_skip (h : Within (front ++ back) c) (place : c.offset = (bytes front).length)
    (m : Nat) : (c.skip m).next.1 = ((ofText back).skip m).next.1.shift (bytes front).length := by
  have atEnd : Token.eof ⟨c.stop, 0⟩
      = (Token.eof ⟨(ofText back).stop, 0⟩).shift (bytes front).length := by
    rw [h.stop_eq place]
    rfl
  rw [Cursor.next_skip, Cursor.next_skip, h.remaining_eq place, atEnd, tokens]
  rw [List.getD_eq_getElem?_getD, List.getD_eq_getElem?_getD, List.getElem?_map, Option.getD_map]

/-- What the cursor has kept are the defects that nobody took. -/
theorem Used.defects_tokens (h : Used text n taken c) : c.defects
    = (((tokens text).take n).drop taken).flatMap (Token.defectsIn (bytes text)) := by
  have wrong : ∀ i ∈ ((ofText text).items.take n).drop taken,
      i.defects = i.token.defectsIn (bytes text) := fun i hi =>
    (standsIn_ofText text).defects_eq i (List.mem_of_mem_take (List.mem_of_mem_drop hi))
  rw [h.defects_eq, defectsIn_eq _ h.le, tokens, Cursor.remaining_eq, ← List.map_take,
    ← List.map_drop, List.flatMap_map, List.flatMap_def, List.flatMap_def,
    List.map_congr_left wrong]

/-- There is at most one of them. -/
theorem Used.length_defects_le (h : Used text n taken c) : c.defects.length ≤ 1 := by
  have all := (lastUnclosed_items text).length_defects_le
  rw [← List.take_append_drop n (ofText text).items,
    ← List.take_append_drop taken ((ofText text).items.take n), List.flatMap_append,
    List.flatMap_append, List.length_append, List.length_append] at all
  rw [h.defects_eq, defectsIn_eq _ h.le]
  omega

end Cursor

/-! ## Reading on -/

variable {front back : String} {n taken : Nat} {c : Cursor}

/-- The first window on a cursor has reported what the cursor has kept. -/
theorem prefix_problems_ofCursor (c : Cursor) :
    c.defects.map .defect <+: (Window.ofCursor c).problems := by
  rw [(Window.shows_ofCursor c).2.1]
  exact List.prefix_append _ _

/-- Reading on from the middle of a text is reading the rest of it. The problems are further back,
and what the cursor has kept is reported in front of them. -/
theorem Cursor.Within.parse_ofCursor (h : Cursor.Within (front ++ back) c)
    (place : c.offset = (bytes front).length) :
    (Window.ofCursor c).parse.program = (parse back).program
      ∧ (Window.ofCursor c).parse.problems = c.defects.map .defect
        ++ (parse back).problems.map (Problem.shift (bytes front).length) := by
  obtain ⟨found, run, problems⟩ := Window.run_ofCursor c
  obtain ⟨found', run', problems'⟩ := parse_run back
  have stop : Span.shift (bytes front).length ⟨(Cursor.ofText back).stop, 0⟩ = ⟨c.stop, 0⟩ := by
    rw [h.stop_eq place]
    rfl
  have moved := run'.respan stop
  rw [h.items_eq place] at run problems
  obtain ⟨statements, rfl, -⟩ := moved.unique run
  have same : Problem.respan (Span.shift (bytes front).length)
      = Problem.shift (bytes front).length := funext (Problem.respan_shift _)
  refine ⟨congrArg Program.mk statements, ?_⟩
  rw [problems, problems', leadProblems_respan, same, List.map_append, List.append_assoc]

/--
**A cursor keeps nothing of what it has handed out but its place and the defects that nobody took.**
If it stands between two characters of a text, then the tokens that are left, the end among them,
the program and the problems are those of the text behind it, in their new places. In front of the
problems is the defect of a string without a closing quote if that string was handed out and its
defect was not taken, and it is reported as soon as there is a window.
-/
theorem parse_of_used (used : Used (front ++ back) n taken c)
    (place : c.offset = (bytes front).length) :
    let kept := (((tokens (front ++ back)).take n).drop taken).flatMap
      (Token.defectsIn (bytes (front ++ back)))
    c.remaining = (tokens back).map (Token.shift (bytes front).length)
      ∧ (∀ m, (c.skip m).next.1
          = ((Cursor.ofText back).skip m).next.1.shift (bytes front).length)
      ∧ (Window.ofCursor c).parse.program = (parse back).program
      ∧ (Window.ofCursor c).parse.problems
        = kept.map .defect ++ (parse back).problems.map (Problem.shift (bytes front).length)
      ∧ kept.map .defect <+: (Window.ofCursor c).problems
      ∧ kept.length ≤ 1 := by
  intro kept
  have within := used.within
  have kept_eq : c.defects = kept := used.defects_tokens
  obtain ⟨program, problems⟩ := within.parse_ofCursor place
  rw [← kept_eq]
  exact ⟨within.remaining_eq place, within.next_skip place, program, problems,
    prefix_problems_ofCursor c, used.length_defects_le⟩

/-- Behind a letter of two bytes, each of which is a token, and behind the end of a text, with the
defect of its last string still there. -/
theorem parse_of_used_behind_letter :
    (Used ("let é" ++ " = \"a") 3 0 ((Cursor.ofText ("let é" ++ " = \"a")).skip 3)
        ∧ ((Cursor.ofText ("let é" ++ " = \"a")).skip 3).offset = (bytes "let é").length
        ∧ (Window.ofCursor ((Cursor.ofText ("let é" ++ " = \"a")).skip 3)).parse.problems
          = (parse " = \"a").problems.map (Problem.shift 6))
      ∧ Used ("é \"a" ++ "") 4 0 ((Cursor.ofText ("é \"a" ++ "")).skip 4)
        ∧ ((Cursor.ofText ("é \"a" ++ "")).skip 4).offset = (bytes "é \"a").length
        ∧ (Window.ofCursor ((Cursor.ofText ("é \"a" ++ "")).skip 4)).parse.problems
          = [.defect (.unclosedString ⟨3, 2⟩)] := by
  have used : Used ("let é" ++ " = \"a") 3 0 ((Cursor.ofText ("let é" ++ " = \"a")).skip 3) :=
    .next (.next (.next .fresh))
  have place : ((Cursor.ofText ("let é" ++ " = \"a")).skip 3).offset = (bytes "let é").length := by
    decide +kernel
  have used' : Used ("é \"a" ++ "") 4 0 ((Cursor.ofText ("é \"a" ++ "")).skip 4) :=
    .next (.next (.next (.next .fresh)))
  have place' : ((Cursor.ofText ("é \"a" ++ "")).skip 4).offset = (bytes "é \"a").length := by
    decide +kernel
  obtain ⟨-, -, -, problems, -⟩ := parse_of_used used place
  obtain ⟨-, -, -, problems', -⟩ := parse_of_used used' place'
  refine ⟨⟨used, place, problems.trans ?_⟩, used', place', problems'.trans ?_⟩
  · decide +kernel
  · decide +kernel

end Scriptlet
