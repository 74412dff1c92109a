import Scriptlet.Parse.Program
import Scriptlet.Proofs.Parse.Showing

/-!
# How statements are read

`Reads stop items s problems behind` lists the ways in which one statement is read from the items a
window shows: which statement comes of it, which problems are reported, and what the window shows at
the last token of the statement. There are ten, five for a statement that is complete and five for
one that is broken, and every broken one has exactly one problem of its own.
`Shows.statement` is the only place where the reader of statements is opened for what comes of it
(how it moves is said by `Steps`). `Run` puts the statements of a source together, and
`Shows.statements` does the same for the loop over them.

Problems of two sorts are told apart by where they come from: `leadProblems` and `skipped` are the
defects of tokens moved onto, all others are about the statement.
-/

namespace Scriptlet

open Cursor (Item)

/-! ## Parts of a statement -/

/-- Whether a statement is known by this keyword. -/
def Kind.opensStatement : Kind → Bool
  | .letWord | .returnWord => true
  | _ => false

theorem Kind.opensStatement_iff {k : Kind} :
    k.opensStatement = true ↔ k = .letWord ∨ k = .returnWord := by
  cases k <;> decide

/-- Whether the first token is such a keyword. -/
def opens : List Item → Bool
  | [] => false
  | i :: _ => i.token.kind.opensStatement

/-- What is left at the token where a broken statement ends. -/
def settle : List Item → List Item
  | [] => []
  | i :: rest => if i.token.kind = .semicolon ∨ opens rest then i :: rest else settle rest

/-- The problems that the tokens skipped up to there bring with them. -/
def skipped : List Item → List Problem
  | [] => []
  | i :: rest =>
    if i.token.kind = .semicolon ∨ opens rest then [] else leadProblems rest ++ skipped rest

/-- What is left at the last token of a complete statement, of which the first item is the last
token but perhaps for a terminator. -/
def terminated : List Item → List Item
  | i :: s :: rest => if s.token.kind = .semicolon then s :: rest else i :: s :: rest
  | items => items

/-! ## Steps of a reader -/

namespace Window

variable {stop : Nat} {w v : Window} {items : List Item}

/-- Only a string brings a problem with it. -/
theorem leadProblems_of_ne_string (h : ∀ i ∈ items, i.Lexed)
    (noString : ∀ i ∈ items.head?, i.token.kind ≠ .string) : leadProblems items = [] := by
  cases items with
  | nil => rfl
  | cons i rest =>
    rw [leadProblems, leadDefects,
      (h i List.mem_cons_self).defects_of_ne_string (noString i rfl), List.map_nil]

theorem Shows.lexed_tail (h : Shows stop items w) : ∀ i ∈ items.tail, i.Lexed :=
  fun i hi => h.lexed i (List.mem_of_mem_tail hi)

/-- The current token is the end only if no items are left. -/
theorem Shows.current_eof_iff (h : Shows stop items w) : w.current.kind = .eof ↔ items = [] := by
  rw [h.current]
  cases items with
  | nil => exact ⟨fun _ => rfl, fun _ => rfl⟩
  | cons i rest =>
    exact ⟨fun hk => absurd hk (h.lexed i List.mem_cons_self).ne_eof, fun hn => nomatch hn⟩

theorem Shows.following_eof_iff (h : Shows stop items w) :
    w.following.kind = .eof ↔ items.tail = [] := by
  have current := h.advance.shows.current_eof_iff
  rwa [advance_current] at current

/-- Moving onto a token without defects reports nothing. -/
theorem Shows.advance_of_kind (h : Shows stop items w) {kind : Kind}
    (hk : w.following.kind = kind) (noString : kind ≠ .string) :
    Goes stop w w.advance [] items.tail := by
  have next := h.advance
  have quiet : leadProblems items.tail = [] := by
    refine leadProblems_of_ne_string h.lexed_tail fun i hi => ?_
    obtain ⟨rest, same⟩ := List.head?_eq_some_iff.mp hi
    rw [h.following, same, lead_cons] at hk
    rw [hk]
    exact noString
  rwa [quiet] at next

theorem Shows.require (h : Shows stop items w) (kind : Kind) (noString : kind ≠ .string) :
    ((lead stop items.tail).kind = kind ∧ w.require kind = .ok w.advance
        ∧ Goes stop w w.advance [] items.tail)
      ∨ ((lead stop items.tail).kind ≠ kind ∧ ∃ v, w.require kind = .error v
        ∧ Goes stop w v [.wrongKind kind (lead stop items.tail)] items) := by
  unfold Window.require
  rw [← h.following]
  by_cases hk : w.following.kind = kind
  · exact .inl ⟨hk, if_pos hk, h.advance_of_kind hk noString⟩
  · exact .inr ⟨hk, _, if_neg hk, h.report _⟩

theorem Shows.takeTerminator (h : Shows stop items w) :
    Goes stop w w.takeTerminator [] (terminated items) := by
  unfold Window.takeTerminator
  split
  · next hk =>
    have next := h.advance_of_kind hk (by decide)
    rw [h.following] at hk
    match items, hk with
    | i :: s :: rest, (hk : s.token.kind = .semicolon) =>
      rw [terminated, if_pos hk]
      exact next
  · next hk =>
    have stays : terminated items = items := by
      unfold terminated
      rw [h.following] at hk
      split
      · exact if_neg hk
      · rfl
    rw [stays]
    exact h.goes

theorem Shows.atBoundary_iff (h : Shows stop items w) : w.atBoundary = true ↔
    items = [] ∨ (lead stop items).kind = .semicolon ∨ opens items.tail = true := by
  have opening : opens items.tail = w.following.kind.opensStatement := by
    rw [h.following]
    cases items.tail with
    | nil => rfl
    | cons i rest => rfl
  rw [← h.current_eof_iff, opening, Kind.opensStatement_iff, ← h.current]
  simp only [atBoundary, Bool.or_eq_true, decide_eq_true_eq]
  constructor
  · rintro (((hk | hk) | hk) | hk)
    · exact .inr (.inl hk)
    · exact .inl hk
    · exact .inr (.inr (.inl hk))
    · exact .inr (.inr (.inr hk))
  · rintro (hk | hk | hk | hk)
    · exact .inl (.inl (.inr hk))
    · exact .inl (.inl (.inl hk))
    · exact .inl (.inr hk)
    · exact .inr hk

/-- **Recovery moves on to where the broken statement ends**, and reports the defects of the tokens
it moves onto. -/
theorem Shows.recover (h : Shows stop items w) :
    Goes stop w w.recover (skipped items) (settle items) := by
  fun_induction Window.recover w generalizing items with
  | case1 w boundary =>
    have here := h.goes
    rcases h.atBoundary_iff.mp boundary with rfl | hk
    · exact here
    · cases items with
      | nil => exact here
      | cons i rest =>
        have hk : i.token.kind = .semicolon ∨ opens rest = true := hk
        rw [skipped, settle, if_pos hk, if_pos hk]
        exact here
  | case2 w inside ih =>
    -- the current token is passed, and recovery starts again on the next one
    have next := h.advance
    cases items with
    | nil => exact absurd (h.atBoundary_iff.mpr (.inl rfl)) inside
    | cons i rest =>
      have hk : ¬ (i.token.kind = .semicolon ∨ opens rest = true) :=
        fun hk => inside (h.atBoundary_iff.mpr (.inr hk))
      rw [skipped, settle, if_neg hk, if_neg hk]
      exact next.trans (ih next.shows)

/-! ## Expressions -/

/-- A required expression comes of the current token, or exactly one problem does. -/
theorem Shows.requiredExpression (h : Shows stop items w) :
    (∃ e v, (lead stop items).operand = .ok e ∧ w.requiredExpression = (some e, v)
        ∧ Goes stop w v [] items)
      ∨ ∃ p v, (lead stop items).operand = .error p ∧ w.requiredExpression = (none, v)
        ∧ Goes stop w v [p] items := by
  rw [← h.current]
  have allowed : w.depth < maxDepth := by
    rw [h.depth]
    decide
  unfold Window.requiredExpression
  rcases w.expression_cases allowed with
    ⟨e, operand, built⟩ | ⟨p, operand, built | ⟨rfl, built⟩⟩
  · refine .inl ⟨e, w.note (.built e), operand, ?_, ?_⟩
    · rw [built]
      exact if_neg fun none => nomatch none.1
    · exact h.noted rfl
  -- a problem was reported, which is seen from their number
  · refine .inr ⟨p, w.report p, operand, ?_, h.report p⟩
    have longer : (w.report p).problems.length ≠ w.problems.length := by
      simp [Window.report]
    rw [built]
    exact if_neg fun same => longer same.2
  -- nothing was reported, so the missing expression is
  · refine .inr ⟨_, w.report (.noExpression w.current), operand, ?_, h.report _⟩
    rw [built]
    exact if_pos ⟨rfl, rfl⟩

/-- The value of a statement comes of the current token, or one problem does and recovery
follows. -/
theorem Shows.value (h : Shows stop items w) :
    (∃ e v, (lead stop items).operand = .ok e ∧ w.value = (some e, v) ∧ Goes stop w v [] items)
      ∨ ∃ p v, (lead stop items).operand = .error p ∧ w.value = (none, v)
        ∧ Goes stop w v (p :: skipped items) (settle items) := by
  unfold Window.value
  rcases h.requiredExpression with ⟨e, v, operand, built, goes⟩ | ⟨p, v, operand, built, goes⟩
  · rw [built]
    exact .inl ⟨e, v, operand, rfl, goes⟩
  · rw [built]
    exact .inr ⟨p, v.recover, operand, rfl, goes.trans goes.shows.recover⟩

end Window

/-! ## Statements -/

/-- One statement is read from `items`. -/
inductive Reads (stop : Nat) :
    List Item → Option Statement → List Problem → List Item → Prop where
  | bind {i name sign v : Item} {rest : List Item} {e : Expr} (hi : i.token.kind = .letWord)
      (hname : name.token.kind = .identifier) (hsign : sign.token.kind = .assign)
      (operand : v.token.operand = .ok e) :
      Reads stop (i :: name :: sign :: v :: rest) (some (.bind name.token.literal e)) []
        (terminated (v :: rest))
  | bindNoName {i : Item} {rest : List Item} (hi : i.token.kind = .letWord)
      (hname : (lead stop rest).kind ≠ .identifier) :
      Reads stop (i :: rest) none
        (.wrongKind .identifier (lead stop rest) :: skipped (i :: rest)) (settle (i :: rest))
  | bindNoSign {i name : Item} {rest : List Item} (hi : i.token.kind = .letWord)
      (hname : name.token.kind = .identifier) (hsign : (lead stop rest).kind ≠ .assign) :
      Reads stop (i :: name :: rest) none
        (.wrongKind .assign (lead stop rest) :: skipped (name :: rest)) (settle (name :: rest))
  | bindNoValue {i name sign : Item} {rest : List Item} {p : Problem}
      (hi : i.token.kind = .letWord) (hname : name.token.kind = .identifier)
      (hsign : sign.token.kind = .assign) (operand : (lead stop rest).operand = .error p) :
      Reads stop (i :: name :: sign :: rest) none (leadProblems rest ++ p :: skipped rest)
        (settle rest)
  | returnEnd {i : Item} (hi : i.token.kind = .returnWord) :
      Reads stop [i] (some (.ret none)) [] [i]
  | returnMark {i s : Item} {rest : List Item} (hi : i.token.kind = .returnWord)
      (hs : s.token.kind = .semicolon) :
      Reads stop (i :: s :: rest) (some (.ret none)) [] (s :: rest)
  | returnValue {i v : Item} {rest : List Item} {e : Expr} (hi : i.token.kind = .returnWord)
      (operand : v.token.operand = .ok e) :
      Reads stop (i :: v :: rest) (some (.ret (some e))) [] (terminated (v :: rest))
  | returnNoValue {i v : Item} {rest : List Item} {p : Problem}
      (hi : i.token.kind = .returnWord) (hv : v.token.kind ≠ .semicolon)
      (operand : v.token.operand = .error p) :
      Reads stop (i :: v :: rest) none (leadProblems (v :: rest) ++ p :: skipped (v :: rest))
        (settle (v :: rest))
  | bare {i : Item} {rest : List Item} {e : Expr} (operand : i.token.operand = .ok e) :
      Reads stop (i :: rest) (some (.expr (some e))) [] (terminated (i :: rest))
  | bareNoValue {i : Item} {rest : List Item} {p : Problem}
      (hi : i.token.kind.opensStatement = false) (operand : i.token.operand = .error p) :
      Reads stop (i :: rest) (some (.expr none)) [p] (terminated (i :: rest))

/-- A keyword or a symbol is no value. -/
theorem Token.operand_of_fixed {t : Token} {k : Kind} {e : Expr} (hk : t.kind = k)
    (name : k ≠ .identifier) (numeral : k ≠ .integer) : t.operand ≠ .ok e := by
  intro operand
  unfold Token.operand at operand
  split at operand
  · next h => exact name (hk.symm.trans h)
  · next h => exact numeral (hk.symm.trans h)
  · cases operand

theorem Token.opensStatement_of_operand {t : Token} {e : Expr} (operand : t.operand = .ok e) :
    t.kind.opensStatement = false := by
  cases keyword : t.kind.opensStatement with
  | false => rfl
  | true =>
    rcases Kind.opensStatement_iff.mp keyword with hk | hk
    · exact absurd operand (Token.operand_of_fixed hk nofun nofun)
    · exact absurd operand (Token.operand_of_fixed hk nofun nofun)

/-- A statement can be read in one way only. Any two of the ten ways differ in the kind of a token
or in what one stands for. -/
theorem Reads.unique {stop : Nat} {items behind behind' : List Item} {s s' : Option Statement}
    {found found' : List Problem} (h : Reads stop items s found behind)
    (h' : Reads stop items s' found' behind') : s' = s ∧ found' = found ∧ behind' = behind := by
  have noLet : ∀ {i : Item} {e : Expr}, i.token.kind = .letWord → i.token.operand ≠ .ok e :=
    fun hk => Token.operand_of_fixed hk nofun nofun
  have noReturn : ∀ {i : Item} {e : Expr}, i.token.kind = .returnWord →
      i.token.operand ≠ .ok e :=
    fun hk => Token.operand_of_fixed hk nofun nofun
  have noMark : ∀ {i : Item} {e : Expr}, i.token.kind = .semicolon → i.token.operand ≠ .ok e :=
    fun hk => Token.operand_of_fixed hk nofun nofun
  have opening : ∀ {i : Item}, i.token.kind = .letWord ∨ i.token.kind = .returnWord →
      i.token.kind.opensStatement ≠ false :=
    fun hk other => absurd ((Kind.opensStatement_iff.mpr hk).symm.trans other) nofun
  cases h with
  | bind hi hname hsign operand =>
    cases h' with
    | bind _ _ _ operand' =>
      cases operand.symm.trans operand'
      exact ⟨rfl, rfl, rfl⟩
    -- all others want another kind, or another operand, of a token that both ways look at
    | _ => grind [lead_cons]
  | bindNoName hi hname =>
    cases h' with
    | bindNoName => exact ⟨rfl, rfl, rfl⟩
    | _ => grind [lead_cons]
  | bindNoSign hi hname hsign =>
    cases h' with
    | bindNoSign => exact ⟨rfl, rfl, rfl⟩
    | _ => grind [lead_cons]
  | bindNoValue hi hname hsign operand =>
    cases h' with
    | bindNoValue _ _ _ operand' =>
      cases operand.symm.trans operand'
      exact ⟨rfl, rfl, rfl⟩
    | _ => grind [lead_cons]
  | returnEnd hi =>
    cases h' with
    | returnEnd => exact ⟨rfl, rfl, rfl⟩
    | _ => grind [lead_cons]
  | returnMark hi hs =>
    cases h' with
    | returnMark => exact ⟨rfl, rfl, rfl⟩
    | _ => grind [lead_cons]
  | returnValue hi operand =>
    cases h' with
    | returnValue _ operand' =>
      cases operand.symm.trans operand'
      exact ⟨rfl, rfl, rfl⟩
    | _ => grind [lead_cons]
  | returnNoValue hi hv operand =>
    cases h' with
    | returnNoValue _ _ operand' =>
      cases operand.symm.trans operand'
      exact ⟨rfl, rfl, rfl⟩
    | _ => grind [lead_cons]
  | bare operand =>
    cases h' with
    | bare operand' =>
      cases operand.symm.trans operand'
      exact ⟨rfl, rfl, rfl⟩
    | _ => grind [lead_cons]
  | bareNoValue hi operand =>
    cases h' with
    | bareNoValue _ operand' =>
      cases operand.symm.trans operand'
      exact ⟨rfl, rfl, rfl⟩
    | _ => grind [lead_cons]

/-! ## What is left behind a statement -/

theorem settle_suffix (items : List Item) : settle items <:+ items := by
  induction items with
  | nil => exact List.nil_suffix
  | cons i rest ih =>
    rw [settle]
    split
    · exact List.suffix_rfl
    · exact ih.trans (List.suffix_cons i rest)

theorem terminated_suffix (items : List Item) : terminated items <:+ items := by
  unfold terminated
  split
  · split
    · exact List.suffix_cons _ _
    · exact List.suffix_rfl
  · exact List.suffix_rfl

/-- Reading a statement goes forward only. -/
theorem Reads.suffix {stop : Nat} {items behind : List Item} {s : Option Statement}
    {found : List Problem} (h : Reads stop items s found behind) : behind <:+ items := by
  have later : ∀ {i : Item} {xs ys : List Item}, xs <:+ ys → xs <:+ i :: ys :=
    fun h => h.trans (List.suffix_cons _ _)
  cases h with
  | bind => exact later (later (later (terminated_suffix _)))
  | bindNoName => exact settle_suffix _
  | bindNoSign => exact later (settle_suffix _)
  | bindNoValue => exact later (later (later (settle_suffix _)))
  | returnEnd => exact List.suffix_rfl
  | returnMark => exact later List.suffix_rfl
  | returnValue => exact later (terminated_suffix _)
  | returnNoValue => exact later (settle_suffix _)
  | bare | bareNoValue => exact terminated_suffix _

/-- What is left behind a statement is behind its first token. -/
theorem Reads.tail_suffix {stop : Nat} {i : Item} {rest behind : List Item}
    {s : Option Statement} {found : List Problem} (h : Reads stop (i :: rest) s found behind) :
    behind.tail <:+ rest := by
  rcases List.suffix_cons_iff.mp h.suffix with rfl | later
  · exact List.suffix_rfl
  · exact (List.tail_suffix behind).trans later

/-- A token that is a value brings no problem with it. -/
theorem leadProblems_of_operand {i : Item} {rest : List Item} {e : Expr} (lexed : i.Lexed)
    (operand : i.token.operand = .ok e) : leadProblems (i :: rest) = [] := by
  have noString : i.token.kind ≠ .string := by
    intro hk
    rw [Token.operand, hk] at operand
    cases operand
  rw [leadProblems, leadDefects, lexed.defects_of_ne_string noString, List.map_nil]

namespace Window

variable {stop : Nat} {w : Window} {i : Item} {rest : List Item}

/-- From `w` one statement was read, with this result. -/
def Reading (stop : Nat) (items : List Item) (w : Window) (result : Option Statement × Window) :
    Prop :=
  ∃ problems behind, Reads stop items result.1 problems behind
    ∧ Goes stop w result.2 problems behind

/-- Behind a header one token is the value, or it is not and recovery follows. -/
theorem Shows.headed {items : List Item} (h : Shows stop items w) :
    (∃ v behind e u, items.tail = v :: behind ∧ v.token.operand = .ok e
        ∧ w.advance.value = (some e, u)
        ∧ Goes stop w u.takeTerminator [] (terminated (v :: behind)))
      ∨ ∃ p u, (lead stop items.tail).operand = .error p ∧ w.advance.value = (none, u)
        ∧ Goes stop w u (leadProblems items.tail ++ p :: skipped items.tail)
          (settle items.tail) := by
  have moved := h.advance
  rcases moved.shows.value with ⟨e, u, operand, built, goes⟩ | ⟨p, u, operand, built, goes⟩
  · cases htail : items.tail with
    | nil =>
      rw [htail] at operand
      cases operand
    | cons v behind =>
      have lexed := h.lexed_tail
      have finished := (moved.trans goes).trans goes.shows.takeTerminator
      rw [htail] at lexed operand finished
      rw [leadProblems_of_operand (lexed v List.mem_cons_self) operand] at finished
      exact .inl ⟨v, behind, e, u, rfl, operand, built, finished⟩
  · exact .inr ⟨p, u, operand, built, moved.trans goes⟩

theorem Shows.binding (h : Shows stop (i :: rest) w) (hi : i.token.kind = .letWord) :
    Reading stop (i :: rest) w w.binding := by
  unfold Window.binding
  rcases h.require .identifier nofun with
    ⟨hname, step, named⟩ | ⟨hname, v, step, reported⟩
  · rw [step]
    cases rest with
    | nil => cases hname
    | cons name rest =>
      rcases named.shows.require .assign nofun with
        ⟨hsign, step, signed⟩ | ⟨hsign, v, step, reported⟩
      · simp only [step]
        cases rest with
        | nil => cases hsign
        | cons sign rest =>
          have header := named.trans signed
          rcases signed.shows.headed with
            ⟨v, behind, e, u, rfl, operand, built, goes⟩ | ⟨p, u, operand, built, goes⟩
          · rw [built]
            have literal : w.advance.current.literal = name.token.literal := by
              rw [named.shows.current]
              rfl
            rw [literal]
            exact ⟨_, _, .bind hi hname hsign operand, header.trans goes⟩
          · rw [built]
            exact ⟨_, _, .bindNoValue hi hname hsign operand, header.trans goes⟩
      · simp only [step]
        exact ⟨_, _, .bindNoSign hi hname hsign,
          (named.trans reported).trans reported.shows.recover⟩
  · rw [step]
    exact ⟨_, _, .bindNoName hi hname, reported.trans reported.shows.recover⟩

theorem Shows.returning (h : Shows stop (i :: rest) w) (hi : i.token.kind = .returnWord) :
    Reading stop (i :: rest) w w.returning := by
  unfold Window.returning
  split
  · next atEnd =>
    have none : rest = [] := h.following_eof_iff.mp atEnd
    subst none
    exact ⟨_, _, .returnEnd hi, h.goes⟩
  · next more =>
    cases rest with
    | nil => exact absurd (h.following_eof_iff.mpr rfl) more
    | cons v rest =>
      have following : w.following = v.token := h.following
      split
      · next hs =>
        have next := h.advance_of_kind hs nofun
        rw [following] at hs
        exact ⟨_, _, .returnMark hi hs, next⟩
      · next hs =>
        rw [following] at hs
        rcases h.headed with
          ⟨v, behind, e, u, same, operand, built, goes⟩ | ⟨p, u, operand, built, goes⟩
        · obtain ⟨rfl, rfl⟩ := List.cons.inj same
          rw [built]
          exact ⟨_, _, .returnValue hi operand, goes⟩
        · rw [built]
          exact ⟨_, _, .returnNoValue hi hs operand, goes⟩

theorem Shows.bare (h : Shows stop (i :: rest) w) (hi : i.token.kind.opensStatement = false) :
    Reading stop (i :: rest) w w.bare := by
  unfold Window.bare
  rcases h.requiredExpression with ⟨e, v, operand, built, goes⟩ | ⟨p, v, operand, built, goes⟩
  · rw [built]
    exact ⟨_, _, .bare operand, goes.trans goes.shows.takeTerminator⟩
  · rw [built]
    exact ⟨_, _, .bareNoValue hi operand, goes.trans goes.shows.takeTerminator⟩

/-- **A statement is read in one of the ten ways**, and was begun at the first token. -/
theorem Shows.statement (h : Shows stop (i :: rest) w) : ∃ problems behind,
    Reads stop (i :: rest) w.statement.1 problems behind ∧ Shows stop behind w.statement.2
      ∧ w.statement.2.problems = w.problems ++ problems
      ∧ w.statement.2.begun = w.begun ++ [i.token] := by
  have noted := h.note (.dispatched w.current)
  have kind : (w.note (.dispatched w.current)).current.kind = i.token.kind := by
    rw [noted.current]
    rfl
  have begun : (w.note (.dispatched w.current)).begun = w.begun ++ [i.token] := by
    rw [begun_note, h.current]
    rfl
  have reading : Reading stop (i :: rest) (w.note (.dispatched w.current)) w.statement := by
    unfold Window.statement
    dsimp only
    split
    · next hk => exact noted.binding (kind.symm.trans hk)
    · next hk => exact noted.returning (kind.symm.trans hk)
    · next noLet noReturn =>
      refine noted.bare ?_
      rw [kind] at noLet noReturn
      unfold Kind.opensStatement
      split
      · exact absurd ‹_› noLet
      · exact absurd ‹_› noReturn
      · rfl
  obtain ⟨problems, behind, reads, goes⟩ := reading
  exact ⟨problems, behind, reads, goes.shows, goes.problems_eq, goes.begun_eq.trans begun⟩

end Window

/-! ## Sources -/

/-- Statements are read from `items` up to the end of the source. The last list holds the tokens at
which they were begun. -/
inductive Run (stop : Nat) : List Item → List Statement → List Problem → List Token → Prop where
  | done : Run stop [] [] [] []
  | step {i : Item} {rest behind : List Item} {s : Option Statement} {statements : List Statement}
      {found problems : List Problem} {begun : List Token}
      (reads : Reads stop (i :: rest) s found behind)
      (more : Run stop behind.tail statements problems begun) :
      Run stop (i :: rest) (s.toList ++ statements)
        (found ++ (leadProblems behind.tail ++ problems)) (i.token :: begun)

/-- There is only one run over the items. -/
theorem Run.unique {stop : Nat} {items : List Item} {statements statements' : List Statement}
    {problems problems' : List Problem} {begun begun' : List Token}
    (h : Run stop items statements problems begun)
    (h' : Run stop items statements' problems' begun') :
    statements' = statements ∧ problems' = problems ∧ begun' = begun := by
  induction h generalizing statements' problems' begun' with
  | done =>
    cases h'
    exact ⟨rfl, rfl, rfl⟩
  | step reads more ih =>
    cases h' with
    | step reads' more' =>
      obtain ⟨rfl, rfl, rfl⟩ := reads.unique reads'
      obtain ⟨rfl, rfl, rfl⟩ := ih more'
      exact ⟨rfl, rfl, rfl⟩

namespace Window

variable {stop : Nat} {w : Window} {items : List Item}

/-- From `w` the statements of `items` were read, with this result. -/
def Finishes (stop : Nat) (items : List Item) (w : Window) (result : List Statement × Window) :
    Prop :=
  ∃ problems begun, Run stop items result.1 problems begun ∧ result.2.pending = []
    ∧ result.2.problems = w.problems ++ problems ∧ result.2.begun = w.begun ++ begun

/-- One statement is read, the reader moves on, and the statements behind it are read. -/
theorem Finishes.cons {i : Item} {rest behind : List Item} {s : Option Statement}
    {found : List Problem} {v u : Window} {result : List Statement × Window}
    (reads : Reads stop (i :: rest) s found behind) (problems_eq : v.problems = w.problems ++ found)
    (begun_eq : v.begun = w.begun ++ [i.token])
    (moved : Goes stop v u (leadProblems behind.tail) behind.tail)
    (later : Finishes stop behind.tail u result) :
    Finishes stop (i :: rest) w (s.toList ++ result.1, result.2) := by
  obtain ⟨problems, begun, more, pending, later_problems, later_begun⟩ := later
  refine ⟨_, _, .step reads more, pending, ?_, ?_⟩
  · rw [later_problems, moved.problems_eq, problems_eq]
    simp only [List.append_assoc]
  · rw [later_begun, moved.begun_eq, begun_eq, List.append_assoc]
    rfl

/-- The loop over the statements is such a run, and nothing is left behind it. -/
theorem Shows.statements (h : Shows stop items w) : Finishes stop items w w.statements := by
  fun_induction Window.statements w generalizing items with
  | case1 w atEnd =>
    obtain rfl := h.current_eof_iff.mp atEnd
    exact ⟨[], [], .done, h.pending, (List.append_nil _).symm, (List.append_nil _).symm⟩
  | case2 w notEnd step dropped =>
    rename_i ih
    cases items with
    | nil => exact absurd (h.current_eof_iff.mpr rfl) notEnd
    | cons i rest =>
      obtain ⟨found, behind, reads, shown, problems_eq, begun_eq⟩ := h.statement
      rw [dropped] at reads
      have moved := shown.advance
      exact .cons reads problems_eq begun_eq moved (ih moved.shows)
  | case3 w notEnd step s kept later =>
    rename_i ih
    cases items with
    | nil => exact absurd (h.current_eof_iff.mpr rfl) notEnd
    | cons i rest =>
      obtain ⟨found, behind, reads, shown, problems_eq, begun_eq⟩ := h.statement
      rw [kept] at reads
      -- the statement is accepted before the reader moves on
      have moved := (shown.noted (e := .accepted s) rfl).trans
        (shown.note (.accepted s)).advance
      exact .cons reads problems_eq begun_eq moved (ih moved.shows)

end Window

/-- The tokens at which statements were begun while a source was read. -/
def Parsed.begun (p : Parsed) : List Token := p.events.filterMap Event.dispatched?

theorem Window.problems_parse (w : Window) :
    w.parse.problems = w.statements.2.problems ++ w.statements.2.pending.map .defect :=
  (reportPending_spec w.statements.2).1

/-- Behind the statements what is pending is reported, and the source has ended. -/
theorem Window.events_parse (w : Window) : w.parse.events = w.statements.2.events.toList
    ++ (w.statements.2.pending.map (fun d => .reported (.defect d))
      ++ [.finished w.parse.program.size w.parse.problems.length]) := by
  rw [← List.append_assoc, ← (reportPending_spec w.statements.2).2.1]
  exact Array.toList_push

theorem Window.begun_parse (w : Window) : w.parse.begun = w.statements.2.begun := by
  rw [Parsed.begun, events_parse]
  simp [begun, Event.dispatched?]

/-- **Reading from a cursor is a run over its items**, and the defects that the cursor had kept are
the first problems. -/
theorem Window.run_ofCursor (c : Cursor) : ∃ problems,
    Run c.stop c.items (ofCursor c).parse.program.statements problems (ofCursor c).parse.begun
      ∧ (ofCursor c).parse.problems = c.defects.map .defect ++ leadProblems c.items ++ problems := by
  obtain ⟨shown, first, none⟩ := shows_ofCursor c
  obtain ⟨problems, begun, run, pending, problems_eq, begun_eq⟩ := shown.statements
  refine ⟨problems, ?_, ?_⟩
  · have same : (ofCursor c).parse.begun = begun := by
      rw [begun_parse, begun_eq, none, List.nil_append]
    rw [same]
    exact run
  · rw [problems_parse, pending, List.map_nil, List.append_nil, problems_eq, first]

/-- **Reading a source is a run over its items.** -/
theorem parse_run (source : String) : ∃ problems,
    Run (Cursor.ofText source).stop (Cursor.ofText source).items (parse source).program.statements
        problems (parse source).begun
      ∧ (parse source).problems = leadProblems (Cursor.ofText source).items ++ problems :=
  Window.run_ofCursor (Cursor.ofText source)

end Scriptlet
