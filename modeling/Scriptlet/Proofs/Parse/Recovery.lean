import Scriptlet.Proofs.Parse.Reading
import Scriptlet.Proofs.Token.Tiling

/-!
# Keywords and recovery

Recovery stops in front of `let` and `return`, but not if the keyword is where the value of a
statement has to be: the reader has moved onto it by then, and looks for the next keyword behind it.
So `let x = let y = 5;` has no statement left.

This is the only way to lose a keyword. `Reads.exists_inner` splits the tokens of a statement off
and finds at most one keyword among them, right behind a `Header`. `Run.mem_begun_iff` carries this
along the source. Tokens are told apart by their spans, so the proof needs that no two are equal.
-/

namespace Scriptlet

open Cursor (Item)

/-- What stands in front of the value of a statement that begins with a keyword. -/
inductive Header : List Token → Prop where
  | giving {r : Token} (hr : r.kind = .returnWord) : Header [r]
  | binding {l name sign : Token} (hl : l.kind = .letWord) (hname : name.kind = .identifier)
      (hsign : sign.kind = .assign) : Header [l, name, sign]

namespace Header

variable {first : Token} {front header : List Token}

/-- A `return` is a header of its own. -/
theorem of_return (h : Header (first :: front)) (hr : first.kind = .returnWord) : front = [] := by
  cases h with
  | giving => rfl
  | binding hl => cases hr.symm.trans hl

theorem of_let (h : Header (first :: front)) (hl : first.kind = .letWord) :
    ∃ name sign, front = [name, sign] ∧ name.kind = .identifier ∧ sign.kind = .assign := by
  cases h with
  | giving hr => cases hl.symm.trans hr
  | binding _ hname hsign => exact ⟨_, _, rfl, hname, hsign⟩

/-- A header begins with a keyword. -/
theorem opensStatement (h : Header (first :: front)) : first.kind.opensStatement = true := by
  cases h with
  | giving hr => exact Kind.opensStatement_iff.mpr (.inr hr)
  | binding hl => exact Kind.opensStatement_iff.mpr (.inl hl)

theorem exists_cons (h : Header header) : ∃ first rest, header = first :: rest := by
  cases h with
  | giving => exact ⟨_, _, rfl⟩
  | binding => exact ⟨_, _, rfl⟩

end Header

/-- Among the tokens there is no keyword that begins a statement. -/
def NoKeyword (ts : List Token) : Prop := ∀ t ∈ ts, t.kind.opensStatement = false

theorem noKeyword_nil : NoKeyword [] := by simp [NoKeyword]

theorem noKeyword_cons {t : Token} {k : Kind} {ts : List Token} (hk : t.kind = k)
    (other : k.opensStatement = false) (h : NoKeyword ts) : NoKeyword (t :: ts) := by
  rintro u (_ | ⟨_, hu⟩)
  · rw [hk]
    exact other
  · exact h u hu

theorem NoKeyword.not_mem {ts : List Token} (h : NoKeyword ts) {t : Token}
    (keyword : t.kind.opensStatement = true) : t ∉ ts := by
  intro ht
  have := h t ht
  rw [keyword] at this
  cases this

/-- A token in a list of two parts is in one of them. -/
theorem append_eq_cut {α : Type} {xs ys front back : List α} {t : α}
    (h : xs ++ ys = front ++ t :: back) : (∃ mid, xs = front ++ t :: mid)
      ∨ ∃ mid, front = xs ++ mid ∧ ys = mid ++ t :: back := by
  rcases List.append_eq_append_iff.mp h with ⟨mid, hfront, hys⟩ | ⟨mid, hxs, htail⟩
  · exact .inr ⟨mid, hfront, hys⟩
  · cases mid with
    | nil => exact .inr ⟨[], by simpa using hxs.symm, by simpa using htail.symm⟩
    | cons u mid =>
      obtain ⟨rfl, -⟩ := List.cons.inj htail
      exact .inl ⟨mid, hxs⟩

/-! ## The tokens of a statement -/

/-- Only the first token that recovery passes may be a keyword. -/
theorem exists_settled : ∀ items : List Item, ∃ passed : List Token,
    items.map Item.token = passed ++ (settle items).tail.map Item.token
      ∧ NoKeyword passed.tail ∧ (items ≠ [] → passed ≠ [])
  | [] => ⟨[], rfl, noKeyword_nil, fun h => absurd rfl h⟩
  | i :: rest => by
    by_cases atBoundary : i.token.kind = .semicolon ∨ opens rest = true
    · refine ⟨[i.token], ?_, noKeyword_nil, fun _ => by simp⟩
      rw [settle, if_pos atBoundary]
      rfl
    · obtain ⟨passed, same, later, nonempty⟩ := exists_settled rest
      refine ⟨i.token :: passed, ?_, ?_, fun _ => by simp⟩
      · rw [settle, if_neg atBoundary, List.map_cons, same, List.cons_append]
      · cases passed with
        | nil => exact noKeyword_nil
        | cons t passed =>
          cases rest with
          | nil => cases same
          | cons j rest =>
            obtain ⟨rfl, -⟩ := List.cons.inj same
            have first : opens (j :: rest) = false := by
              cases hj : opens (j :: rest) with
              | true => exact absurd (.inr hj) atBoundary
              | false => rfl
            exact noKeyword_cons rfl first later

/-- The same where the first token is known. -/
theorem exists_settled_cons (i : Item) (rest : List Item) : ∃ passed : List Token,
    rest.map Item.token = passed ++ (settle (i :: rest)).tail.map Item.token
      ∧ NoKeyword passed := by
  obtain ⟨passed, same, later, nonempty⟩ := exists_settled (i :: rest)
  cases passed with
  | nil => exact absurd rfl (nonempty (by simp))
  | cons t passed => exact ⟨passed, (List.cons.inj same).2, later⟩

theorem exists_terminated (v : Item) (rest : List Item) : ∃ mark : List Token,
    rest.map Item.token = mark ++ (terminated (v :: rest)).tail.map Item.token
      ∧ NoKeyword mark := by
  match rest with
  | [] => exact ⟨[], rfl, noKeyword_nil⟩
  | s :: rest =>
    rw [terminated]
    split
    · next hs =>
      exact ⟨[s.token], rfl, noKeyword_cons hs rfl noKeyword_nil⟩
    · exact ⟨[], rfl, noKeyword_nil⟩

/-- Where only one token can be a keyword, a keyword is that token. -/
theorem front_eq_of_keyword {xs ys front back : List Token} {t : Token} (hxs : NoKeyword xs)
    (hys : NoKeyword ys.tail) (h : xs ++ ys = front ++ t :: back)
    (keyword : t.kind.opensStatement = true) : front = xs := by
  rcases append_eq_cut h with ⟨mid, rfl⟩ | ⟨mid, rfl, rfl⟩
  · exact absurd (by simp) (hxs.not_mem keyword)
  · cases mid with
    | nil => rw [List.append_nil]
    | cons u mid => exact absurd (by simp) (hys.not_mem keyword)

/-- The statement that began at `first` went on with `inner`, and `later` is left. A keyword in
`inner` stands where the value has to be, and a keyword that stands there is in `inner`. -/
structure Inner (first : Token) (inner later : List Token) : Prop where
  isValue : ∀ {front mid : List Token} {t : Token}, inner = front ++ t :: mid →
    t.kind.opensStatement = true → Header (first :: front)
  isPassed : ∀ {front back : List Token} {t : Token}, Header (first :: front) →
    inner ++ later = front ++ t :: back → t.kind.opensStatement = true →
    front.length < inner.length

theorem Inner.of_noKeyword {first : Token} {inner later : List Token} (h : NoKeyword inner)
    (isPassed : ∀ {front back : List Token} {t : Token}, Header (first :: front) →
      inner ++ later = front ++ t :: back → t.kind.opensStatement = true →
      front.length < inner.length) : Inner first inner later := by
  refine ⟨?_, isPassed⟩
  rintro front mid t rfl keyword
  exact absurd (by simp) (h.not_mem keyword)

/-- The tokens of a value and its terminator. -/
theorem exists_valued {v : Item} (rest : List Item) {e : Expr}
    (operand : v.token.operand = .ok e) : ∃ inner,
    (v :: rest).map Item.token = inner ++ (terminated (v :: rest)).tail.map Item.token
      ∧ NoKeyword inner ∧ inner ≠ [] := by
  obtain ⟨mark, same, none⟩ := exists_terminated v rest
  refine ⟨v.token :: mark, ?_, noKeyword_cons rfl (Token.opensStatement_of_operand operand) none,
    by simp⟩
  rw [List.map_cons, same, List.cons_append]

/-- A statement that begins with no keyword has no header. -/
theorem exists_inner_of_noKeyword {i : Item} {rest : List Item}
    (hi : i.token.kind.opensStatement = false) : ∃ inner,
    rest.map Item.token = inner ++ (terminated (i :: rest)).tail.map Item.token
      ∧ Inner i.token inner ((terminated (i :: rest)).tail.map Item.token) := by
  obtain ⟨mark, same, none⟩ := exists_terminated i rest
  refine ⟨mark, same, .of_noKeyword none ?_⟩
  intro front back t header _ _
  exact absurd (hi.symm.trans header.opensStatement) Bool.false_ne_true

/-- **The tokens of a statement**: at most one of them is a keyword besides the first, and it is
right behind the header. -/
theorem Reads.exists_inner {stop : Nat} {i : Item} {rest behind : List Item}
    {s : Option Statement} {found : List Problem} (h : Reads stop (i :: rest) s found behind) :
    ∃ inner, rest.map Item.token = inner ++ behind.tail.map Item.token
      ∧ Inner i.token inner (behind.tail.map Item.token) := by
  cases h with
  | @bind i name sign v rest e hi hname hsign operand =>
    obtain ⟨inner, same, none, nonempty⟩ := exists_valued rest operand
    refine ⟨name.token :: sign.token :: inner, ?_, .of_noKeyword ?_ ?_⟩
    · rw [List.map_cons, List.map_cons, same]
      rfl
    · exact noKeyword_cons hname rfl (noKeyword_cons hsign rfl none)
    · intro front back t header _ _
      obtain ⟨_, _, rfl, -⟩ := header.of_let hi
      have := List.length_pos_iff.mpr nonempty
      simp only [List.length_cons, List.length_nil]
      omega
  | @bindNoName i rest hi hname =>
    obtain ⟨passed, same, none⟩ := exists_settled_cons i rest
    refine ⟨passed, same, .of_noKeyword none ?_⟩
    -- the header would go on with an identifier
    intro front back t header split _
    obtain ⟨_, _, rfl, hname', -⟩ := header.of_let hi
    rw [← same] at split
    obtain ⟨name, rest, rfl, rfl, -⟩ := List.map_eq_cons_iff.mp split
    exact absurd hname' hname
  | @bindNoSign i name rest hi hname hsign =>
    obtain ⟨passed, same, none⟩ := exists_settled_cons name rest
    refine ⟨name.token :: passed, ?_, .of_noKeyword (noKeyword_cons hname rfl none) ?_⟩
    · rw [List.map_cons, same, List.cons_append]
    -- the header would go on with `=`
    · intro front back t header split _
      obtain ⟨_, _, rfl, -, hsign'⟩ := header.of_let hi
      rw [List.cons_append, ← same] at split
      obtain ⟨sign, rest, rfl, rfl, -⟩ := List.map_eq_cons_iff.mp (List.cons.inj split).2
      exact absurd hsign' hsign
  | @bindNoValue i name sign rest p hi hname hsign operand =>
    obtain ⟨passed, same, later, nonempty⟩ := exists_settled rest
    have header : NoKeyword [name.token, sign.token] :=
      noKeyword_cons hname rfl (noKeyword_cons hsign rfl noKeyword_nil)
    refine ⟨[name.token, sign.token] ++ passed, ?_, ?_, ?_⟩
    · rw [List.append_assoc, ← same]
      rfl
    -- the first token that recovery passes stands where the value has to be
    · intro front mid t split keyword
      rw [front_eq_of_keyword header later split keyword]
      exact .binding hi hname hsign
    · intro front back t header split keyword
      obtain ⟨_, _, rfl, -⟩ := header.of_let hi
      rw [List.append_assoc, ← same] at split
      replace split := (List.cons.inj (List.cons.inj split).2).2
      obtain ⟨v, rest, rfl, -, -⟩ := List.map_eq_cons_iff.mp split
      have := List.length_pos_iff.mpr (nonempty (by simp))
      simp only [List.length_append, List.length_cons, List.length_nil]
      omega
  | returnEnd hi =>
    refine ⟨[], rfl, .of_noKeyword noKeyword_nil ?_⟩
    intro front back t _ split _
    exact absurd split (by simp)
  | @returnMark i m rest hi hm =>
    refine ⟨[m.token], rfl, .of_noKeyword (noKeyword_cons hm rfl noKeyword_nil) ?_⟩
    intro front back t header _ _
    rw [header.of_return hi]
    exact Nat.succ_pos _
  | @returnValue i v rest e hi operand =>
    obtain ⟨inner, same, none, nonempty⟩ := exists_valued rest operand
    refine ⟨inner, same, .of_noKeyword none ?_⟩
    intro front back t header _ _
    rw [header.of_return hi]
    exact List.length_pos_iff.mpr nonempty
  | @returnNoValue i v rest p hi hv operand =>
    obtain ⟨passed, same, later, nonempty⟩ := exists_settled (v :: rest)
    refine ⟨passed, same, ?_, ?_⟩
    · intro front mid t split keyword
      rw [front_eq_of_keyword noKeyword_nil later split keyword]
      exact .giving hi
    · intro front back t header _ _
      rw [header.of_return hi]
      exact List.length_pos_iff.mpr (nonempty (by simp))
  | bare operand =>
    exact exists_inner_of_noKeyword (Token.opensStatement_of_operand operand)
  | bareNoValue hi operand => exact exists_inner_of_noKeyword hi

/-! ## Keywords along the source -/

variable {stop : Nat} {items : List Item} {statements : List Statement} {problems : List Problem}
  {begun : List Token}

theorem Run.begun_subset (h : Run stop items statements problems begun) :
    ∀ t ∈ begun, t ∈ items.map Item.token := by
  induction h with
  | done => simp
  | @step i rest behind s statements found problems begun reads more ih =>
    obtain ⟨inner, same, -⟩ := reads.exists_inner
    rintro t (_ | ⟨_, ht⟩)
    · simp
    · rw [List.map_cons, same]
      exact List.mem_cons_of_mem _ (List.mem_append_right _ (ih t ht))

/-- No statement that was begun has its header right in front of what comes behind `front`. -/
def Clear (begun front : List Token) : Prop :=
  ∀ pre h header, front = pre ++ h :: header → Header (h :: header) → h ∉ begun

/-- **A keyword begins a statement unless it is right behind the header of another one.** -/
theorem Run.mem_begun_iff (h : Run stop items statements problems begun)
    (nodup : (items.map Item.token).Nodup) {front back : List Token} {t : Token}
    (split : items.map Item.token = front ++ t :: back) (keyword : t.kind.opensStatement = true) :
    t ∈ begun ↔ Clear begun front := by
  induction h generalizing front with
  | done => exact absurd split (by simp)
  | @step i rest behind s statements found problems begun reads more ih =>
    obtain ⟨inner, same, isInner⟩ := reads.exists_inner
    rw [List.map_cons, same] at nodup split
    have later := more.begun_subset
    obtain ⟨fresh, parts⟩ := List.nodup_cons.mp nodup
    obtain ⟨-, nodup', apart⟩ := List.nodup_append.mp parts
    have notAgain : ∀ u ∈ inner, u ∉ begun := fun u hu hb => apart u hu u (later u hb) rfl
    cases front with
    | nil =>
      -- the keyword begins this statement
      obtain ⟨rfl, -⟩ := List.cons.inj split
      refine ⟨fun _ pre h header none => ?_, fun _ => List.mem_cons_self⟩
      exact absurd none (by simp)
    | cons u front =>
      obtain ⟨rfl, cut⟩ := List.cons.inj split
      have other : t ≠ i.token := by
        rintro rfl
        exact fresh (cut ▸ List.mem_append_right front List.mem_cons_self)
      rw [List.mem_cons, or_iff_right other]
      rcases append_eq_cut cut with ⟨mid, rfl⟩ | ⟨front, rfl, ahead⟩
      · -- the keyword stands where the value of this statement has to be
        refine ⟨fun ht => absurd ht (notAgain t (by simp)), fun clear => ?_⟩
        have header := isInner.isValue rfl keyword
        exact absurd List.mem_cons_self (clear [] i.token front rfl header)
      · -- the keyword is behind this statement
        rw [ih nodup' ahead]
        constructor
        · intro clear pre h header same isHeader hb
          have same : (i.token :: inner) ++ front = pre ++ h :: header := same
          rcases append_eq_cut same with ⟨mid, within⟩ | ⟨pre, -, rfl⟩
          · cases pre with
            | nil =>
              obtain ⟨rfl, rfl⟩ := List.cons.inj same
              have short : (inner ++ front).length < inner.length :=
                isInner.isPassed isHeader cut keyword
              rw [List.length_append] at short
              omega
            | cons u pre =>
              have inside : h ∈ inner := by
                rw [(List.cons.inj within).2]
                simp
              rcases List.mem_cons.mp hb with rfl | hb
              · exact fresh (List.mem_append_left _ inside)
              · exact notAgain h inside hb
          · rcases List.mem_cons.mp hb with rfl | hb
            · exact fresh (by rw [ahead]; simp)
            · exact clear pre h header rfl isHeader hb
        · intro clear pre h header same isHeader hb
          refine clear (i.token :: (inner ++ pre)) h header ?_ isHeader (List.mem_cons_of_mem _ hb)
          rw [same, List.cons_append, List.append_assoc]

/-! ## Sources -/

theorem mem_begun_parse {source : String} {t : Token} :
    t ∈ (parse source).begun ↔ .dispatched t ∈ (parse source).events := by
  rw [Parsed.begun, List.mem_filterMap]
  constructor
  · rintro ⟨e, he, ht⟩
    cases e <;> cases ht
    exact he
  · exact fun he => ⟨_, he, rfl⟩

/-- In any source, broken or not, a keyword begins a statement unless it is right behind the header
of another statement that was begun. -/
theorem dispatched_iff {source : String} {front back : List Token} {t : Token}
    (split : tokens source = front ++ t :: back) (keyword : t.kind.opensStatement = true) :
    Event.dispatched t ∈ (parse source).events
      ↔ ∀ pre h header, front = pre ++ h :: header → Header (h :: header) →
        Event.dispatched h ∉ (parse source).events := by
  obtain ⟨problems, run, -⟩ := parse_run source
  have nodup := nodup_tokens source
  simp only [← mem_begun_parse]
  rw [tokens_eq] at nodup split
  exact run.mem_begun_iff nodup split keyword

/--
**Every `let` and `return` begins a statement if and only if none of them stands where the value of
another one has to be.** The second part says for a single one when it does.
-/
theorem keywords_dispatched_iff (source : String) :
    ((∀ t ∈ tokens source, t.kind.opensStatement = true →
        Event.dispatched t ∈ (parse source).events)
      ↔ ∀ header t, Header header → header ++ [t] <:+: tokens source →
        t.kind.opensStatement = false)
      ∧ ∀ front t back, tokens source = front ++ t :: back → t.kind.opensStatement = true →
        (Event.dispatched t ∈ (parse source).events
          ↔ ∀ pre h header, front = pre ++ h :: header → Header (h :: header) →
            Event.dispatched h ∉ (parse source).events) := by
  refine ⟨⟨?_, ?_⟩, fun front t back split keyword => dispatched_iff split keyword⟩
  · rintro all header t isHeader ⟨pre, post, split⟩
    cases keyword : t.kind.opensStatement with
    | false => rfl
    | true =>
      -- both the keyword and the one that the header begins with were to begin a statement
      obtain ⟨h, rest, rfl⟩ := isHeader.exists_cons
      have opening := isHeader.opensStatement
      have split : tokens source = (pre ++ h :: rest) ++ t :: post := by
        rw [← split]
        simp
      have clear := (dispatched_iff split keyword).mp (all t (by rw [split]; simp) keyword)
      exact absurd (all h (by rw [split]; simp) opening) (clear pre h rest rfl isHeader)
  · intro none t ht keyword
    obtain ⟨front, back, split⟩ := List.append_of_mem ht
    refine (dispatched_iff split keyword).mpr ?_
    rintro pre h header rfl isHeader -
    have := none (h :: header) t isHeader ⟨pre, back, by rw [split]; simp⟩
    rw [keyword] at this
    cases this

/-- The second `let` stands where the value of the first one has to be. -/
theorem let_as_value_not_dispatched : ¬ ∀ t ∈ tokens "let x = let y = 5;",
    t.kind.opensStatement = true →
      Event.dispatched t ∈ (parse "let x = let y = 5;").events := by
  decide +kernel

end Scriptlet
