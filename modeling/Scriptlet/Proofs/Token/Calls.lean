import Scriptlet.Proofs.Token.Index
import Scriptlet.Proofs.Token.Unclosed

/-!
# Calls in any order

There are several ways to take tokens out of a cursor: one at a time with the end as a token of its
own, one at a time as from a list, or all that are left at once. Besides one may take the defects,
and ask whether the end was reported. Whatever is called in whatever order, the answers are those
of a list of tokens that gets shorter (`play_ofText`).

What one turn does to the cursor is written down as a balance: the tokens go from those in front of
the cursor to those handed out, and their defects to those that are held or given away (`Balance`).
Balances add up (`Balance.trans`), so those of the turns make the balance of a whole run.
-/

namespace Scriptlet.Cursor

open Text

/-- What may be called on a cursor. -/
inductive Call where
  | nextToken | next | takeDefects | isExhausted | count | last

/-- The answer to a call. -/
inductive Answer where
  | token (t : Token)
  | next (t : Option Token)
  | defects (found : List Defect)
  | exhausted (b : Bool)
  | count (n : Nat)
  | last (t : Option Token)
deriving DecidableEq

/-- A call that was answered. -/
structure Turn where
  answer : Answer
  /-- The tokens that the call took out of the cursor. -/
  handed : List Token
deriving DecidableEq

/-- Answers a call. To count the tokens, or to find the last, is to take all out. -/
def turn (c : Cursor) : Call → Turn × Cursor
  | .nextToken => (⟨.token c.next.1, c.next?.1.toList⟩, c.next.2)
  | .next => (⟨.next c.next?.1, c.next?.1.toList⟩, c.next?.2)
  | .takeDefects => (⟨.defects c.takeDefects.1, []⟩, c.takeDefects.2)
  | .isExhausted => (⟨.exhausted c.exhausted, []⟩, c)
  | .count => (⟨.count c.drain.1.length, c.drain.1⟩, c.drain.2)
  | .last => (⟨.last c.drain.1.getLast?, c.drain.1⟩, c.drain.2)

/-- Answers calls one after the other. -/
def play : List Call → Cursor → List Turn × Cursor
  | [], c => ([], c)
  | call :: calls, c =>
    let first := c.turn call
    let later := play calls first.2
    (first.1 :: later.1, later.2)

/-- Whether the end of the source is reported. Who takes all tokens out comes to the end. -/
def Answer.reportsEnd : Answer → Bool
  | .token t => t.kind == .eof
  | .next t => t.isNone
  | .count _ | .last _ => true
  | .defects _ | .exhausted _ => false

/-- The defects that are given away. -/
def Answer.given : Answer → List Defect
  | .defects found => found
  | .token _ | .next _ | .exhausted _ | .count _ | .last _ => []

/-- The answer when the tokens `left` were not handed out yet, the defects `held` were not given
away, and the end of the source, which is at `stop`, was reported or was not. -/
def Call.expected (stop : Nat) (left : List Token) (held : List Defect) (ended : Bool) :
    Call → Turn
  | .nextToken => ⟨.token (left.headD (.eof ⟨stop, 0⟩)), left.take 1⟩
  | .next => ⟨.next left.head?, left.take 1⟩
  | .takeDefects => ⟨.defects held, []⟩
  | .isExhausted => ⟨.exhausted ended, []⟩
  | .count => ⟨.count left.length, left⟩
  | .last => ⟨.last left.getLast?, left⟩

/-- When nothing is left, the end is all there is to report. -/
example (stop : Nat) (held : List Defect) (ended : Bool) :
    [Call.nextToken, .next, .count, .last].map (fun c => (c.expected stop [] held ended).answer)
      = [.token (.eof ⟨stop, 0⟩), .next none, .count 0, .last none] := rfl

/-! ## One turn -/

theorem drain_snd (c : Cursor) :
    c.drain.2.items = [] ∧ c.drain.2.exhausted = true ∧ c.drain.2.stop = c.stop := by
  induction c using items_induction with
  | eof c h =>
    rw [drain, if_pos h]
    exact ⟨items_next_of_eof h, (next_of_eof h).2, stop_next c⟩
  | step c h ih =>
    rw [drain, if_neg h]
    rw [stop_next] at ih
    exact ih

theorem next?_fst (c : Cursor) : c.next?.1 = c.remaining.head? := by
  rw [next?]
  by_cases h : c.next.1.kind = .eof
  · rw [if_pos h, remaining_of_eof h, List.head?_nil]
  · rw [if_neg h, remaining_of_ne_eof h, List.head?_cons]

theorem next_fst (c : Cursor) : c.next.1 = c.remaining.headD (.eof ⟨c.stop, 0⟩) := by
  by_cases h : c.next.1.kind = .eof
  · rw [remaining_of_eof h, (next_of_eof h).1]
    rfl
  · rw [remaining_of_ne_eof h]
    rfl

/-- The answer depends on nothing but what is left, what is held and whether the end was
reported. -/
theorem turn_fst (c : Cursor) (call : Call) :
    (c.turn call).1 = call.expected c.stop c.remaining c.defects c.exhausted := by
  have first : c.next?.1.toList = c.remaining.take 1 := by
    rw [next?_fst]
    cases c.remaining <;> rfl
  cases call with
  | nextToken => rw [turn, Call.expected, first, ← next_fst]
  | next => rw [turn, Call.expected, first, ← next?_fst]
  | takeDefects | isExhausted | count | last => rfl

/-- From `c` to `c'` tokens were handed out, defects given away, and the end reported or not. -/
structure Balance (c c' : Cursor) (handed : List Token) (given : List Defect) (ended : Bool) :
    Prop where
  items : ∃ front, c.items = front ++ c'.items ∧ handed = front.map Item.token
    ∧ given ++ c'.defects = c.defects ++ front.flatMap Item.defects
  exhausted : c'.exhausted = (c.exhausted || ended)
  empty : ended = true → c'.items = []
  stop : c'.stop = c.stop

namespace Balance

variable {c c' c'' : Cursor}

theorem refl (c : Cursor) : Balance c c [] [] false :=
  ⟨⟨[], rfl, rfl, (List.append_nil _).symm⟩, (Bool.or_false _).symm, nofun, rfl⟩

/-- Balances add up. -/
theorem trans {handed handed' : List Token} {given given' : List Defect} {ended ended' : Bool}
    (h : Balance c c' handed given ended) (h' : Balance c' c'' handed' given' ended') :
    Balance c c'' (handed ++ handed') (given ++ given') (ended || ended') := by
  obtain ⟨front, items, rfl, held⟩ := h.items
  obtain ⟨front', items', rfl, held'⟩ := h'.items
  refine ⟨⟨front ++ front', ?_, ?_, ?_⟩, ?_, fun reported => ?_, h'.stop.trans h.stop⟩
  · rw [items, items', List.append_assoc]
  · rw [List.map_append]
  · rw [List.append_assoc, held', ← List.append_assoc, held, List.flatMap_append,
      List.append_assoc]
  · rw [h'.exhausted, h.exhausted, Bool.or_assoc]
  · rcases (Bool.or_eq_true _ _).mp reported with first | later
    · -- behind the end there is nothing to hand out
      have empty := h.empty first
      rw [items'] at empty
      exact (List.append_eq_nil_iff.mp empty).2
    · exact h'.empty later

end Balance

/-- The balance of one token. -/
theorem balance_next (c : Cursor) :
    Balance c c.next.2 c.next?.1.toList [] (c.next.1.kind == .eof) := by
  have kept : c.next.2.defects = c.defects ++ c.found := by rw [next_eq]
  by_cases h : c.next.1.kind = .eof
  · refine ⟨⟨[], ?_, ?_, ?_⟩, ?_, fun _ => items_next_of_eof h, stop_next c⟩
    · rw [items_of_eof h, items_next_of_eof h]
      rfl
    · rw [next?, if_pos h]
      rfl
    · rw [kept, found_of_eof h]
      rfl
    · rw [(next_of_eof h).2, h]
      exact (Bool.or_true _).symm
  · have goesOn : c.exhausted = false := by
      rw [← Bool.not_eq_true]
      intro hc
      rw [next_of_exhausted hc] at h
      exact h rfl
    refine ⟨⟨[⟨c.next.1, c.found⟩], items_of_ne_eof h, ?_, ?_⟩, ?_,
      fun atEnd => absurd (eq_of_beq atEnd) h, stop_next c⟩
    · rw [next?, if_neg h]
      rfl
    · rw [kept, List.flatMap_singleton]
      rfl
    · rw [(next_of_ne_eof goesOn h).1, goesOn, beq_eq_false_iff_ne.mpr h]
      rfl

/-- The balance of all tokens that are left. -/
theorem balance_drain (c : Cursor) : Balance c c.drain.2 c.drain.1 [] true := by
  obtain ⟨empty, exhausted, stop⟩ := drain_snd c
  refine ⟨⟨c.items, ?_, remaining_eq c, defects_drain c⟩, ?_, fun _ => empty, stop⟩
  · rw [empty, List.append_nil]
  · rw [exhausted, Bool.or_true]

/-- **The balance of a turn.** -/
theorem balance_turn (c : Cursor) (call : Call) : Balance c (c.turn call).2
    (c.turn call).1.handed (c.turn call).1.answer.given (c.turn call).1.answer.reportsEnd := by
  cases call with
  | nextToken => exact balance_next c
  | next =>
    have reported : c.next?.1.isNone = (c.next.1.kind == .eof) := by
      rw [next?]
      by_cases h : c.next.1.kind = .eof
      · rw [if_pos h, h]
        rfl
      · rw [if_neg h, beq_eq_false_iff_ne.mpr h]
        rfl
    have balance := balance_next c
    rw [← reported] at balance
    exact balance
  | takeDefects =>
    exact ⟨⟨[], (items_forget c).symm, rfl, rfl⟩, (Bool.or_false _).symm, nofun, rfl⟩
  | isExhausted => exact .refl c
  | count | last => exact balance_drain c

/-! ## All turns -/

/-- The last of several calls may be made apart. -/
theorem play_concat (calls : List Call) (call : Call) (c : Cursor) :
    (play (calls ++ [call]) c).1 = (play calls c).1 ++ [((play calls c).2.turn call).1] := by
  induction calls generalizing c with
  | nil => rfl
  | cons first calls ih => rw [List.cons_append, play, play, ih, List.cons_append]

/-- **The balance of a run** is that of its turns. -/
theorem balance_play (calls : List Call) (c : Cursor) : Balance c (play calls c).2
    ((play calls c).1.flatMap Turn.handed) ((play calls c).1.flatMap fun t => t.answer.given)
    ((play calls c).1.any fun t => t.answer.reportsEnd) := by
  induction calls generalizing c with
  | nil => exact .refl c
  | cons call calls ih =>
    rw [play, List.flatMap_cons, List.flatMap_cons, List.any_cons]
    exact (balance_turn c call).trans (ih _)

/--
**Whatever was called, the next answer is that of the tokens that are left.** The tokens handed out
and those left are the tokens of the text. The answers that follow the first report of the end are
those of no tokens. And the defects given away and those still held are what is wrong with the
tokens handed out.
-/
theorem play_ofText (text : String) (calls : List Call) :
    let played := play calls (ofText text)
    let handed := played.1.flatMap Turn.handed
    let ended := played.1.any fun t => t.answer.reportsEnd
    ∃ left, handed ++ left = tokens text
      ∧ (ended = true → left = [])
      ∧ (∀ call, (play (calls ++ [call]) (ofText text)).1
          = played.1 ++ [call.expected (bytes text).length left played.2.defects ended])
      ∧ (played.1.flatMap fun t => t.answer.given) ++ played.2.defects
          = handed.flatMap (Token.defectsIn (bytes text)) := by
  intro played handed ended
  have balance : Balance (ofText text) played.2 handed _ ended := balance_play calls (ofText text)
  obtain ⟨front, items, tokens, held⟩ := balance.items
  have stop : played.2.stop = (bytes text).length := balance.stop.trans (Nat.zero_add _)
  have exhausted : played.2.exhausted = ended := balance.exhausted.trans (Bool.false_or _)
  refine ⟨played.2.remaining, ?_, fun reported => ?_, fun call => ?_, held.trans ?_⟩
  · rw [Scriptlet.tokens, remaining_eq, remaining_eq, items, tokens, List.map_append]
  · rw [remaining_eq, balance.empty reported, List.map_nil]
  · rw [play_concat, turn_fst, stop, exhausted]
  · have wrong : ∀ i ∈ front, i.defects = i.token.defectsIn (bytes text) := fun i hi =>
      (standsIn_ofText text).defects_eq i (by rw [items]; exact List.mem_append_left _ hi)
    rw [tokens, List.flatMap_map, List.flatMap_def, List.flatMap_def, List.map_congr_left wrong]
    rfl

end Scriptlet.Cursor
