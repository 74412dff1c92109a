import Scriptlet.Proofs.Parse.Reading

/-!
# Places do not matter

Nothing that is read from a source depends on where its tokens stand. Whatever a function does to
the spans of the items, it does to the problems, and the statements stay as they are (`Reads.respan`,
`Run.respan`).
-/

namespace Scriptlet

open Cursor (Item)

/-- The problem about another place. -/
def Problem.respan (f : Span → Span) : Problem → Problem
  | wrongKind wanted found => wrongKind wanted (found.respan f)
  | badInteger literal span fault => badInteger literal (f span) fault
  | noExpression token => noExpression (token.respan f)
  | tooDeep limit span => tooDeep limit (f span)
  | defect d => defect (d.respan f)

/-- The problem without its place. -/
def Problem.unplaced : Problem → Problem := respan fun _ => ⟨0, 0⟩

/-- In a source with more bytes in front a problem is about another place. -/
theorem Problem.respan_shift (n : Nat) (p : Problem) : p.respan (Span.shift n) = p.shift n := by
  rcases p with _ | _ | _ | _ | ⟨⟨⟩⟩ <;> rfl

variable {f : Span → Span} {stop stop' : Nat} {items behind : List Item}

@[simp] theorem Item.kind_respan (i : Item) : (i.respan f).token.kind = i.token.kind := rfl

/-! ## Parts of a statement -/

theorem Token.operand_respan (t : Token) :
    (t.respan f).operand = t.operand.mapError (Problem.respan f) := by
  unfold Token.operand
  have kind : (t.respan f).kind = t.kind := rfl
  have literal : (t.respan f).literal = t.literal := rfl
  rw [kind, literal]
  split
  · rfl
  · split <;> rfl
  · rfl

theorem lead_respan (hstop : f ⟨stop, 0⟩ = ⟨stop', 0⟩) (items : List Item) :
    lead stop' (items.map (Item.respan f)) = (lead stop items).respan f := by
  cases items with
  | nil => simp [lead, Token.eof, Token.respan, hstop]
  | cons i rest => rfl

theorem leadProblems_respan (items : List Item) :
    leadProblems (items.map (Item.respan f)) = (leadProblems items).map (Problem.respan f) := by
  cases items with
  | nil => rfl
  | cons i rest => simp [leadProblems, leadDefects, Item.respan, Problem.respan]

theorem opens_respan (items : List Item) : opens (items.map (Item.respan f)) = opens items := by
  cases items <;> rfl

theorem settle_respan (items : List Item) :
    settle (items.map (Item.respan f)) = (settle items).map (Item.respan f) := by
  induction items with
  | nil => rfl
  | cons i rest ih =>
    simp only [List.map_cons, settle, opens_respan, Item.kind_respan, ih]
    split <;> rfl

theorem skipped_respan (items : List Item) :
    skipped (items.map (Item.respan f)) = (skipped items).map (Problem.respan f) := by
  induction items with
  | nil => rfl
  | cons i rest ih =>
    simp only [List.map_cons, skipped, opens_respan, Item.kind_respan, leadProblems_respan, ih]
    split
    · rfl
    · rw [List.map_append]

theorem terminated_respan (items : List Item) :
    terminated (items.map (Item.respan f)) = (terminated items).map (Item.respan f) := by
  match items with
  | [] | [_] => rfl
  | i :: s :: rest =>
    by_cases hs : s.token.kind = .semicolon <;> simp [terminated, hs]

/-! ## Statements -/

/-- **A statement is read alike wherever its tokens stand.** -/
theorem Reads.respan (hstop : f ⟨stop, 0⟩ = ⟨stop', 0⟩) {s : Option Statement}
    {found : List Problem} (h : Reads stop items s found behind) :
    Reads stop' (items.map (Item.respan f)) s (found.map (Problem.respan f))
      (behind.map (Item.respan f)) := by
  have leads : ∀ items : List Item, (lead stop' (items.map (Item.respan f))).kind
      = (lead stop items).kind := by
    intro items
    rw [lead_respan hstop]
    rfl
  have wrong : ∀ (k : Kind) (items : List Item),
      Problem.respan f (.wrongKind k (lead stop items))
        = .wrongKind k (lead stop' (items.map (Item.respan f))) := by
    intro k items
    rw [lead_respan hstop]
    rfl
  have value : ∀ {t : Token} {e : Expr}, t.operand = .ok e → (t.respan f).operand = .ok e := by
    intro t e operand
    rw [Token.operand_respan, operand]
    rfl
  have noValue : ∀ {t : Token} {p : Problem}, t.operand = .error p →
      (t.respan f).operand = .error (p.respan f) := by
    intro t p operand
    rw [Token.operand_respan, operand]
    rfl
  cases h with
  | bind hi hname hsign operand =>
    rw [← terminated_respan]
    exact .bind hi hname hsign (value operand)
  | bindNoName hi hname =>
    rw [List.map_cons (f := Problem.respan f), wrong, ← skipped_respan, ← settle_respan]
    exact .bindNoName hi (by rwa [leads])
  | bindNoSign hi hname hsign =>
    rw [List.map_cons (f := Problem.respan f), wrong, ← skipped_respan, ← settle_respan]
    exact .bindNoSign hi hname (by rwa [leads])
  | bindNoValue hi hname hsign operand =>
    rw [List.map_append, List.map_cons (f := Problem.respan f), ← leadProblems_respan, ← skipped_respan, ← settle_respan]
    exact .bindNoValue hi hname hsign (by rw [lead_respan hstop]; exact noValue operand)
  | returnEnd hi => exact .returnEnd hi
  | returnMark hi hs => exact .returnMark hi hs
  | returnValue hi operand =>
    rw [← terminated_respan]
    exact .returnValue hi (value operand)
  | returnNoValue hi hv operand =>
    rw [List.map_append, List.map_cons (f := Problem.respan f), ← leadProblems_respan, ← skipped_respan, ← settle_respan]
    exact .returnNoValue hi hv (noValue operand)
  | bare operand =>
    rw [← terminated_respan]
    exact .bare (value operand)
  | bareNoValue hi operand =>
    rw [← terminated_respan]
    exact .bareNoValue hi (noValue operand)

/-- **A source is read alike wherever its tokens stand.** -/
theorem Run.respan (hstop : f ⟨stop, 0⟩ = ⟨stop', 0⟩) {statements : List Statement}
    {problems : List Problem} {begun : List Token} (h : Run stop items statements problems begun) :
    Run stop' (items.map (Item.respan f)) statements (problems.map (Problem.respan f))
      (begun.map (Token.respan f)) := by
  induction h with
  | done => exact .done
  | step reads more ih =>
    rw [List.map_tail] at ih
    rw [List.map_append, List.map_append, ← leadProblems_respan, List.map_tail]
    exact .step (reads.respan hstop) ih

end Scriptlet
