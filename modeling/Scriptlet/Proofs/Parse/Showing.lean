import Scriptlet.Parse.Statement
import Scriptlet.Proofs.Token.Stream

/-!
# What a window shows

A window on a source is described by the items from its current token on: `Shows stop items w`. The
two tokens of the window are the first two of them, or the end where there are none, and the cursor
stands behind the second. Moving on takes one item off the front, at the end as well, where nothing
is left to be taken off.

`Goes` says what a step of a reader leaves behind: the items that are shown then, the problems
reported on the way, and the statements begun (none, for all steps but the first of a statement).
Steps are put together with `Goes.trans`.
-/

namespace Scriptlet

open Cursor (Item)

/-! ## The items from the current token on -/

/-- The first token, or the end of the source. -/
def lead (stop : Nat) : List Item → Token
  | [] => .eof ⟨stop, 0⟩
  | i :: _ => i.token

/-- The defects of the first token. -/
def leadDefects : List Item → List Defect
  | [] => []
  | i :: _ => i.defects

/-- The problems that the first token brings with it. -/
def leadProblems (items : List Item) : List Problem := (leadDefects items).map .defect

@[simp] theorem lead_cons (stop : Nat) (i : Item) (rest : List Item) :
    lead stop (i :: rest) = i.token := rfl

/-- A step of a cursor takes the first item off. -/
theorem Cursor.next_items (c : Cursor) : c.next.1 = lead c.stop c.items
    ∧ c.found = leadDefects c.items ∧ c.next.2.items = c.items.tail := by
  by_cases h : c.next.1.kind = .eof
  · rw [items_of_eof h, items_next_of_eof h, found_of_eof h, (next_of_eof h).1]
    exact ⟨rfl, rfl, rfl⟩
  · rw [items_of_ne_eof h]
    exact ⟨rfl, rfl, rfl⟩

/-- The token of which a statement begins, if the event tells of one. -/
def Event.dispatched? : Event → Option Token
  | .dispatched t => some t
  | _ => none

namespace Window

/-- The tokens at which statements were begun so far. -/
def begun (w : Window) : List Token := w.events.toList.filterMap Event.dispatched?

/-- The window shows the items from its current token on. -/
structure Shows (stop : Nat) (items : List Item) (w : Window) : Prop where
  current : w.current = lead stop items
  following : w.following = lead stop items.tail
  pending : w.pending = leadDefects items.tail
  ahead : w.cursor.items = items.tail.tail
  taken : w.cursor.defects = []
  stop_eq : w.cursor.stop = stop
  depth : w.depth = 0
  lexed : ∀ i ∈ items, i.Lexed

/-- From `w` a reader goes on to `v`, which shows `items`, and reports problems on the way. -/
structure Goes (stop : Nat) (w v : Window) (problems : List Problem) (items : List Item) :
    Prop where
  shows : Shows stop items v
  problems_eq : v.problems = w.problems ++ problems
  begun_eq : v.begun = w.begun

variable {stop : Nat} {w v u : Window} {items later rest : List Item}
  {found more : List Problem}

theorem Shows.goes (h : Shows stop items w) : Goes stop w w [] items :=
  ⟨h, (List.append_nil _).symm, rfl⟩

theorem Goes.trans (first : Goes stop w v found items) (second : Goes stop v u more later) :
    Goes stop w u (found ++ more) later where
  shows := second.shows
  problems_eq := by rw [second.problems_eq, first.problems_eq, List.append_assoc]
  begun_eq := second.begun_eq.trans first.begun_eq

/-! ## Notes and reports -/

theorem begun_note (e : Event) (w : Window) :
    (w.note e).begun = w.begun ++ e.dispatched?.toList := by
  rw [begun, note, Array.toList_push, List.filterMap_append, begun]
  cases h : e.dispatched? <;> simp [h]

theorem begun_report (p : Problem) (w : Window) : (w.report p).begun = w.begun := by
  simp [begun, report, Event.dispatched?]

theorem Shows.note (h : Shows stop items w) (e : Event) : Shows stop items (w.note e) :=
  ⟨h.current, h.following, h.pending, h.ahead, h.taken, h.stop_eq, h.depth, h.lexed⟩

/-- An event that begins no statement changes nothing. -/
theorem Shows.noted (h : Shows stop items w) {e : Event} (he : e.dispatched? = none) :
    Goes stop w (w.note e) [] items where
  shows := h.note e
  problems_eq := (List.append_nil _).symm
  begun_eq := by rw [begun_note, he, Option.toList_none, List.append_nil]

theorem Shows.report (h : Shows stop items w) (p : Problem) :
    Goes stop w (w.report p) [p] items where
  shows := ⟨h.current, h.following, h.pending, h.ahead, h.taken, h.stop_eq, h.depth, h.lexed⟩
  problems_eq := rfl
  begun_eq := begun_report p w

/-- What was pending is reported, and nothing else happens. -/
theorem reportPending_spec (w : Window) :
    w.reportPending.problems = w.problems ++ w.pending.map .defect
      ∧ w.reportPending.events.toList
        = w.events.toList ++ w.pending.map (fun d => .reported (.defect d))
      ∧ w.reportPending.depth = w.depth := by
  -- reporting leaves `pending` alone, so the list to be reported has to be a variable
  have all : ∀ (ds : List Defect) (v : Window),
      (ds.foldl (fun w d => w.report (.defect d)) v).problems = v.problems ++ ds.map .defect
        ∧ (ds.foldl (fun w d => w.report (.defect d)) v).events.toList
          = v.events.toList ++ ds.map (fun d => .reported (.defect d))
        ∧ (ds.foldl (fun w d => w.report (.defect d)) v).depth = v.depth := by
    intro ds
    induction ds with
    | nil =>
      intro v
      exact ⟨(List.append_nil _).symm, (List.append_nil _).symm, rfl⟩
    | cons d ds ih =>
      intro v
      obtain ⟨problems, events, depth⟩ := ih (v.report (.defect d))
      refine ⟨?_, ?_, depth⟩
      · rw [List.foldl_cons, problems, Window.report, List.map_cons, List.append_assoc]
        rfl
      · rw [List.foldl_cons, events, Window.report, Array.toList_push, List.map_cons,
          List.append_assoc]
        rfl
  exact all w.pending { w with pending := [] }

/-! ## Moving on -/

theorem advance_pending (w : Window) : w.advance.pending = w.cursor.next.2.defects := by
  simp only [advance, note, fetch, Cursor.takeDefects, reportPending_cursor]
  split <;> rfl

theorem advance_depth (w : Window) : w.advance.depth = w.depth := by
  rw [← (reportPending_spec w).2.2]
  simp only [advance, note, fetch]
  split <;> rfl

theorem advance_problems (w : Window) :
    w.advance.problems = w.problems ++ w.pending.map .defect := by
  rw [← (reportPending_spec w).1]
  simp only [advance, note, fetch]
  split <;> rfl

/-- **What happens when the window moves on**: what was pending is reported, a token is recognized
unless the source had ended before, and two tokens are shown. -/
theorem advance_events (w : Window) : w.advance.events.toList
    = w.events.toList ++ w.pending.map (fun d => .reported (.defect d))
      ++ ((if w.cursor.exhausted then [] else [.lexed w.cursor.next.1])
        ++ [.advanced w.following w.cursor.next.1]) := by
  rw [← (reportPending_spec w).2.1]
  simp only [advance, note, fetch, reportPending_cursor, Array.toList_push]
  split
  · rfl
  · rw [Array.toList_push, List.append_assoc]

/-- Where reports and recognized tokens are not looked for, a move is one event. -/
theorem filterMap_advance {α : Type} {f : Event → Option α} (noReport : ∀ p, f (.reported p) = none)
    (noToken : ∀ t, f (.lexed t) = none) (w : Window) :
    w.advance.events.toList.filterMap f
      = w.events.toList.filterMap f ++ (f (.advanced w.following w.cursor.next.1)).toList := by
  have reports : (w.pending.map fun d => Event.reported (.defect d)).filterMap f = [] := by
    rw [List.filterMap_map, List.filterMap_eq_nil_iff]
    exact fun d _ => noReport _
  have token : (if w.cursor.exhausted then [] else [.lexed w.cursor.next.1]).filterMap f = [] := by
    split
    · rfl
    · exact List.filterMap_cons_none (noToken _)
  rw [advance_events, List.filterMap_append, List.filterMap_append, List.filterMap_append, reports,
    token, List.append_nil, List.nil_append, List.filterMap_cons, List.filterMap_nil]
  cases f (.advanced w.following w.cursor.next.1) with
  | none | some => rfl

theorem advance_begun (w : Window) : w.advance.begun = w.begun := by
  rw [begun, filterMap_advance (fun _ => rfl) (fun _ => rfl)]
  exact List.append_nil _

/-- **Moving on takes the first item off**, and reports what the next one brings with it. -/
theorem Shows.advance (h : Shows stop items w) :
    Goes stop w w.advance (leadProblems items.tail) items.tail where
  shows := by
    obtain ⟨token, defects, ahead⟩ := w.cursor.next_items
    rw [h.ahead] at token defects ahead
    refine ⟨h.following, ?_, ?_, ?_, ?_, ?_, ?_, ?_⟩
    · rw [advance_following, token, h.stop_eq]
    · rw [advance_pending, Cursor.next_eq, h.taken, List.nil_append, defects]
    · rw [advance_cursor]
      exact (Cursor.items_forget _).trans ahead
    · rw [advance_cursor]
    · rw [advance_cursor]
      exact (Cursor.stop_next _).trans h.stop_eq
    · rw [advance_depth, h.depth]
    · exact fun i hi => h.lexed i (List.mem_of_mem_tail hi)
  problems_eq := by rw [advance_problems, h.pending, leadProblems]
  begun_eq := advance_begun w

/-- The first window on a cursor shows all its items. The defects that the cursor had kept are
reported together with those of the first token. -/
theorem shows_ofCursor (c : Cursor) : Shows c.stop c.items (ofCursor c)
    ∧ (ofCursor c).problems = c.defects.map .defect ++ leadProblems c.items
    ∧ (ofCursor c).begun = [] := by
  obtain ⟨token, defects, ahead⟩ := c.next_items
  obtain ⟨token', defects', ahead'⟩ := c.next.2.forget.next_items
  have hcursor : (initial c).advance.cursor = c.next.2.forget := advance_cursor _
  have hpending : (initial c).advance.pending = c.defects ++ c.found := by
    rw [advance_pending, initial, Cursor.next_eq]
  rw [Cursor.items_forget, ahead, Cursor.forget_stop, Cursor.stop_next] at token' 
  rw [Cursor.items_forget, ahead] at defects' ahead'
  refine ⟨⟨?_, ?_, ?_, ?_, ?_, ?_, ?_, Cursor.lexed_of_mem_items c⟩, ?_, ?_⟩
  · rw [ofCursor, advance_current, advance_following]
    exact token
  · rw [ofCursor, advance_following, hcursor, token']
  · rw [ofCursor, advance_pending, hcursor, Cursor.next_eq, ← defects']
    rfl
  · rw [ofCursor, advance_cursor, hcursor]
    exact (Cursor.items_forget _).trans ahead'
  · rw [ofCursor, advance_cursor]
  · rw [ofCursor, advance_cursor, hcursor]
    exact (Cursor.stop_next _).trans (Cursor.stop_next c)
  · rw [ofCursor, advance_depth, advance_depth]
    rfl
  · rw [ofCursor, advance_problems, hpending, advance_problems, defects, List.map_append]
    rfl
  · rw [ofCursor, advance_begun, advance_begun]
    rfl

end Window

end Scriptlet
