import Scriptlet.Parse.Event
import Scriptlet.Token.Cursor

/-!
# The window of two tokens

A reader of statements sees two tokens of a source: the current one and the one that follows. Moving
on shifts them by one. Defects of the following token stay pending until it becomes the current
one, so that problems are reported in the order of the source.

## Termination

`ahead` bounds how often the window can still move before both tokens are the end: the bytes that no
token was made of yet, and one for each of the two tokens that is not the end. A move never raises
it, and a move away from a current token that is not the end lowers it. `Moves` says what every
sequence of moves keeps of that.
-/

namespace Scriptlet

/-- What is known while a source is read. -/
structure Window where
  cursor : Cursor
  current : Token
  following : Token
  /-- Defects of the following token. -/
  pending : List Defect
  /-- The problems reported so far. -/
  problems : List Problem
  /-- In how many expressions the one that is read next is nested. -/
  depth : Nat
  /-- What happened so far. -/
  events : Array Event
deriving DecidableEq

namespace Window

/-! ## Moving on -/

/-- Remembers an event. -/
def note (e : Event) (w : Window) : Window := { w with events := w.events.push e }

/-- Reports a problem. -/
def report (p : Problem) (w : Window) : Window :=
  { w with problems := w.problems ++ [p], events := w.events.push (.reported p) }

/-- Reports what was pending. -/
def reportPending (w : Window) : Window :=
  w.pending.foldl (fun w d => w.report (.defect d)) { w with pending := [] }

/-- Fetches a token from the cursor. At the end of the source the cursor recognizes nothing anew,
and there is no event. -/
def fetch (w : Window) : Token × Window :=
  let step := w.cursor.next
  let taken := step.2.takeDefects
  let fetched := { w with cursor := taken.2, pending := taken.1 }
  (step.1, if w.cursor.exhausted then fetched else fetched.note (.lexed step.1))

/-- Moves on by one token. -/
def advance (w : Window) : Window :=
  let step := w.reportPending.fetch
  { step.2 with current := w.following, following := step.1 }.note (.advanced w.following step.1)

/-- The window before the first token. -/
def initial (c : Cursor) : Window where
  cursor := c
  current := .eof ⟨0, 0⟩
  following := .eof ⟨0, 0⟩
  pending := []
  problems := []
  depth := 0
  events := #[]

/-- The window on the next two tokens of a cursor. -/
def ofCursor (c : Cursor) : Window := (initial c).advance.advance

/-! ## How far it is to the end -/

/-- One for a token of the source, nothing for its end. -/
def weight (t : Token) : Nat := if t.kind = .eof then 0 else 1

theorem weight_of_ne_eof {t : Token} (h : t.kind ≠ .eof) : weight t = 1 := if_neg h

/-- How often the window can still move before both tokens are the end. -/
def ahead (w : Window) : Nat :=
  w.cursor.rest.length + weight w.following + weight w.current

@[simp] theorem reportPending_cursor (w : Window) : w.reportPending.cursor = w.cursor := by
  unfold reportPending
  generalize w.pending = ds
  suffices ∀ v : Window, (ds.foldl (fun w d => w.report (.defect d)) v).cursor = v.cursor from
    this _
  induction ds with
  | nil => intro v; rfl
  | cons d ds ih => intro v; exact ih _

@[simp] theorem advance_current (w : Window) : w.advance.current = w.following := rfl

@[simp] theorem advance_following (w : Window) : w.advance.following = w.cursor.next.1 := by
  simp [advance, note, fetch]

@[simp] theorem advance_cursor (w : Window) :
    w.advance.cursor = { w.cursor.next.2 with defects := [] } := by
  simp only [advance, note, fetch, Cursor.takeDefects, reportPending_cursor]
  split <;> rfl

/-- A move away from a token that is not the end brings the end closer. -/
theorem ahead_advance (w : Window) : w.advance.ahead + weight w.current ≤ w.ahead := by
  simp only [ahead, advance_current, advance_following, advance_cursor]
  by_cases h : w.cursor.next.1.kind = .eof
  · have := w.cursor.length_rest_next_le
    have none : weight w.cursor.next.1 = 0 := if_pos h
    omega
  · have := Cursor.length_rest_next h
    have one := weight_of_ne_eof h
    omega

/-- From `w` the window moved on to `v`, any number of times. -/
structure Moves (w v : Window) : Prop where
  ahead_le : v.ahead ≤ w.ahead
  stays_or_lt : w.current.kind ≠ .eof → v.current = w.current ∨ v.ahead < w.ahead

namespace Moves

theorem refl (w : Window) : Moves w w := ⟨Nat.le_refl _, fun _ => .inl rfl⟩

theorem trans {u v w : Window} (first : Moves u v) (second : Moves v w) : Moves u w where
  ahead_le := Nat.le_trans second.ahead_le first.ahead_le
  stays_or_lt := fun notEnd => by
    rcases first.stays_or_lt notEnd with same | lower
    · rcases second.stays_or_lt (by rw [same]; exact notEnd) with same' | lower'
      · exact .inl (same'.trans same)
      · exact .inr (Nat.lt_of_lt_of_le lower' first.ahead_le)
    · exact .inr (Nat.lt_of_le_of_lt second.ahead_le lower)

theorem advance (w : Window) : Moves w w.advance where
  ahead_le := by
    have := w.ahead_advance
    omega
  stays_or_lt := fun notEnd => .inr <| by
    have := w.ahead_advance
    have := weight_of_ne_eof notEnd
    omega

theorem note (e : Event) (w : Window) : Moves w (w.note e) :=
  ⟨Nat.le_refl _, fun _ => .inl rfl⟩

theorem report (p : Problem) (w : Window) : Moves w (w.report p) :=
  ⟨Nat.le_refl _, fun _ => .inl rfl⟩

/-- Once more after any number of moves brings the end closer, unless the end is where they
began. -/
theorem ahead_advance_lt {w v : Window} (moves : Moves w v) (notEnd : w.current.kind ≠ .eof) :
    v.advance.ahead < w.ahead := by
  have last := v.ahead_advance
  rcases moves.stays_or_lt notEnd with same | lower
  · have := moves.ahead_le
    have := weight_of_ne_eof notEnd
    rw [same] at last
    omega
  · omega

end Moves

/-! ## Steps of a reader -/

/-- Moves on if the following token is of a kind, and reports a problem otherwise. -/
def require (kind : Kind) (w : Window) : Except Window Window :=
  if w.following.kind = kind then .ok w.advance
  else .error (w.report (.wrongKind kind w.following))

/-- Moves on to a terminator if one follows. -/
def takeTerminator (w : Window) : Window :=
  if w.following.kind = .semicolon then w.advance else w

/-- Whether a broken statement ends here: at its terminator, at the end of the source, or right
before a keyword that begins a statement. -/
def atBoundary (w : Window) : Bool :=
  w.current.kind = .semicolon || w.current.kind = .eof
    || w.following.kind = .letWord || w.following.kind = .returnWord

theorem current_ne_eof_of_atBoundary {w : Window} (h : ¬ w.atBoundary = true) :
    w.current.kind ≠ .eof := by
  intro atEnd
  simp [atBoundary, atEnd] at h

/-- Moves on to where the broken statement ends. -/
def recover (w : Window) : Window :=
  if w.atBoundary then w else w.advance.recover
termination_by w.ahead
decreasing_by exact (Moves.refl w).ahead_advance_lt (current_ne_eof_of_atBoundary ‹_›)

end Window

end Scriptlet
