import Scriptlet.CommandLine

/-!
# Where flags stand

A command line of one subcommand, its file and groups of the letters `v` and `q` says the same
wherever the groups stand in front of the name of the subcommand, and wherever they stand behind it
(`read_eq`). What counts is how often either letter is given in front and how often behind. No place
may have more than two of one letter, or both letters. A letter that is given behind the name counts
there alone, so the totals of the whole command line do not decide. They do if all flags are on one
side of the name, or if the command line is refused (`read_arranged`).

The words are taken from left to right, so either side is an induction on them. A group adds its
letters to those counted so far (`countGroup_eq`), and what is over the bound once stays over it.
-/

namespace Scriptlet

namespace Flags

/-- The flags of two places together. -/
def plus (f g : Flags) : Flags := ⟨f.verbose + g.verbose, f.quiet + g.quiet⟩

/-- No flag is given more often than it may be. -/
def Bounded (f : Flags) : Prop := f.verbose ≤ countBound ∧ f.quiet ≤ countBound

instance (f : Flags) : Decidable f.Bounded := inferInstanceAs (Decidable (_ ∧ _))

/-- The flags that letters stand for. -/
def ofLetters (letters : List Char) : Flags := ⟨letters.count 'v', letters.count 'q'⟩

@[simp] theorem none_plus (f : Flags) : none.plus f = f := by
  simp [plus, none]

theorem plus_assoc (f g h : Flags) : (f.plus g).plus h = f.plus (g.plus h) := by
  simp [plus, Nat.add_assoc]

theorem ofLetters_append (letters letters' : List Char) :
    ofLetters (letters ++ letters') = (ofLetters letters).plus (ofLetters letters') := by
  simp [ofLetters, plus]

theorem Bounded.of_plus {f g : Flags} (h : (f.plus g).Bounded) : f.Bounded :=
  ⟨Nat.le_trans (Nat.le_add_right _ _) h.1, Nat.le_trans (Nat.le_add_right _ _) h.2⟩

theorem plus_comm (f g : Flags) : f.plus g = g.plus f := by
  simp [plus, Nat.add_comm]

theorem Bounded.overriddenBy {f g : Flags} (h : f.Bounded) (h' : g.Bounded) :
    (f.overriddenBy g).Bounded := by
  unfold Flags.overriddenBy
  constructor <;> dsimp only <;> split
  · exact h.1
  · exact h'.1
  · exact h.2
  · exact h'.2

theorem Bounded.verbosity_eq {f : Flags} (h : f.Bounded) :
    f.verbosity = (f.verbose : Int) - (f.quiet : Int) := by
  have verbose : min f.verbose 2 = f.verbose := Nat.min_eq_left h.1
  have quiet : min f.quiet 2 = f.quiet := Nat.min_eq_left h.2
  rw [verbosity, verbose, quiet]

theorem conflicting_eq_false {f : Flags} :
    f.conflicting = false ↔ f.verbose = 0 ∨ f.quiet = 0 := by
  simp [conflicting]
  omega

theorem conflicting_of_plus {f g : Flags} (h : (f.plus g).conflicting = false) :
    f.conflicting = false := by
  rw [conflicting_eq_false] at h ⊢
  exact h.imp Nat.eq_zero_of_add_eq_zero_right Nat.eq_zero_of_add_eq_zero_right

end Flags

/-- The words of a command without flags. -/
def Command.words : Command → List String
  | .tokens none => ["tokens"]
  | .tokens (some file) => ["tokens", file]
  | .parse file => ["parse", file]

/-- The file of a command. -/
def Command.file? : Command → Option String
  | .tokens file => file
  | .parse file => some file

namespace CommandLine

/-- Whether a word is a `-` and a group of the letters `v` and `q`. -/
def isCounting (word : String) : Bool :=
  match word.toList with
  | '-' :: c :: rest => (c :: rest).all fun c => c == 'v' || c == 'q'
  | _ => false

/-- The flags that are given in words. -/
def counted (words : List String) : Flags :=
  .ofLetters ((words.filter isCounting).flatMap String.toList)

/-- Whether a word can name a file: it is not empty and does not begin with `-`. -/
def IsFileName (word : String) : Prop := word ≠ "" ∧ word.toList.head? ≠ some '-'

/-! ## Words that count -/

theorem exists_letters {word : String} (h : isCounting word = true) : ∃ letters,
    form word = .group letters ∧ (∀ c ∈ letters, c = 'v' ∨ c = 'q')
      ∧ Flags.ofLetters word.toList = .ofLetters letters := by
  unfold isCounting at h
  unfold form
  split at h
  · next c rest same =>
    have letters : ∀ d ∈ c :: rest, d = 'v' ∨ d = 'q' := by simpa using h
    have noDash : c ≠ '-' := by
      rintro rfl
      simp at letters
    refine ⟨c :: rest, ?_, letters, ?_⟩
    · rw [same]
      simp [noDash]
    · rw [same]
      rfl
  · cases h

theorem form_plain {word : String} (h : IsFileName word) : form word = .plain := by
  unfold form
  cases chars : word.toList with
  | nil => rfl
  | cons c rest =>
    have noDash : c ≠ '-' := by
      rintro rfl
      exact h.2 (by rw [chars]; rfl)
    simp [noDash]

theorem counted_cons {word : String} {letters : List Char} (words : List String)
    (counting : isCounting word = true)
    (same : Flags.ofLetters word.toList = .ofLetters letters) :
    counted (word :: words) = (Flags.ofLetters letters).plus (counted words) := by
  rw [counted, List.filter_cons_of_pos counting, List.flatMap_cons, Flags.ofLetters_append, same]
  rfl

theorem counted_cons_of_not {word : String} (words : List String)
    (other : isCounting word = false) : counted (word :: words) = counted words := by
  rw [counted, List.filter_cons_of_neg (by simp [other])]
  rfl

/-- **A group adds its letters to those counted so far**, or is refused. -/
theorem countGroup_eq (versioned : Bool) : ∀ {letters : List Char} {f : Flags},
    (∀ c ∈ letters, c = 'v' ∨ c = 'q') → f.Bounded →
    countGroup versioned f letters = if (f.plus (.ofLetters letters)).Bounded
      then .ok (f.plus (.ofLetters letters)) else .error .countedTooOften
  | [], f, _, bounded => by
    have same : f.plus (.ofLetters []) = f := rfl
    rw [same, if_pos bounded]
    rfl
  | c :: letters, f, known, bounded => by
    obtain ⟨first, later⟩ := List.forall_mem_cons.mp known
    -- one more of the letter, if there is room for it
    rcases first with rfl | rfl
    · have same : f.plus (.ofLetters ('v' :: letters))
          = (Flags.mk (f.verbose + 1) f.quiet).plus (.ofLetters letters) := by
        simp [Flags.plus, Flags.ofLetters]
        omega
      rw [countGroup, same]
      by_cases room : f.verbose < Flags.countBound
      · rw [if_pos room]
        exact countGroup_eq versioned later ⟨room, bounded.2⟩
      · rw [if_neg room, if_neg fun h => room h.of_plus.1]
    · have same : f.plus (.ofLetters ('q' :: letters))
          = (Flags.mk f.verbose (f.quiet + 1)).plus (.ofLetters letters) := by
        simp [Flags.plus, Flags.ofLetters]
        omega
      rw [countGroup, same]
      by_cases room : f.quiet < Flags.countBound
      · rw [if_pos room]
        exact countGroup_eq versioned later ⟨bounded.1, room⟩
      · rw [if_neg room, if_neg fun h => room h.of_plus.2]

/-! ## In front of the name -/

/-- The groups in front of the rest of a command line are counted together. -/
theorem readFrom_append (rest : List String) : ∀ {front : List String} {f : Flags},
    (∀ word ∈ front, isCounting word = true) → f.Bounded →
    readFrom f (front ++ rest) = if (f.plus (counted front)).Bounded
      then readFrom (f.plus (counted front)) rest else .error .countedTooOften
  | [], f, _, bounded => by
    have same : f.plus (counted []) = f := rfl
    rw [same, if_pos bounded, List.nil_append]
  | word :: front, f, counting, bounded => by
    obtain ⟨first, counting⟩ := List.forall_mem_cons.mp counting
    obtain ⟨letters, group, known, same⟩ := exists_letters first
    rw [counted_cons front first same, ← Flags.plus_assoc, List.cons_append, readFrom.eq_def]
    simp only [group]
    show countGroup true f letters >>= (readFrom · (front ++ rest)) = _
    rw [countGroup_eq true known bounded]
    by_cases room : (f.plus (.ofLetters letters)).Bounded
    · rw [if_pos room]
      exact readFrom_append rest counting room
    · rw [if_neg room, if_neg fun h => room h.of_plus]
      rfl

/-! ## Behind the name -/

theorem emptyWaits_eq_false {file final : Option String} {others : List String}
    (plain : ∀ name ∈ final, IsFileName name) (names : file.toList ++ others = final.toList) :
    emptyWaits file = false := by
  cases file with
  | none => rfl
  | some name =>
    have member : name ∈ final := by
      rw [Option.mem_def, ← Option.mem_toList, ← names]
      exact List.mem_append_left others (by simp)
    simp [emptyWaits, (plain name member).1]

/-- The groups around a file name are counted together, and the file name is kept. -/
theorem operands_eq {final : Option String} (plain : ∀ name ∈ final, IsFileName name) :
    ∀ {words : List String} {f : Flags} {file : Option String}, f.Bounded →
    file.toList ++ words.filter (!isCounting ·) = final.toList →
    operands false f file words = if (f.plus (counted words)).Bounded
      then .ok (f.plus (counted words), final) else .error .countedTooOften
  | [], f, file, bounded, names => by
    have same : f.plus (counted []) = f := rfl
    have named := emptyWaits_eq_false plain names
    rw [List.filter_nil, List.append_nil] at names
    obtain rfl : file = final := by
      cases file <;> cases final <;> simp_all
    rw [operands, named, same, if_pos bounded]
    rfl
  | word :: words, f, file, bounded, names => by
    have named := emptyWaits_eq_false plain names
    rw [operands.eq_def]
    cases counting : isCounting word with
    | true =>
      obtain ⟨letters, group, known, same⟩ := exists_letters counting
      rw [List.filter_cons_of_neg (by simp [counting])] at names
      rw [counted_cons words counting same, ← Flags.plus_assoc]
      simp only [group, named, Bool.false_eq_true, false_and, if_false]
      show countGroup false f letters >>= (operands false · file words) = _
      rw [countGroup_eq false known bounded]
      by_cases room : (f.plus (.ofLetters letters)).Bounded
      · rw [if_pos room]
        exact operands_eq plain room names
      · rw [if_neg room, if_neg fun h => room h.of_plus]
        rfl
    | false =>
      -- this is the file name, and there is no other
      rw [List.filter_cons_of_pos (by simp [counting])] at names
      obtain ⟨rfl, rfl, none⟩ : file = none ∧ final = some word
          ∧ words.filter (!isCounting ·) = [] := by
        cases file <;> cases final <;> simp_all
      rw [counted_cons_of_not words counting]
      simp only [form_plain (plain word rfl)]
      show operands false f (some word) words = _
      exact operands_eq plain bounded (by rw [none]; rfl)

variable {c : Command} {words : List String}

/-- A command is made from its file by the subcommand that it names. -/
theorem exists_make (c : Command) : ∃ name make, c.words = name :: c.file?.toList
    ∧ form name = .plain ∧ isCounting name = false
    ∧ subcommands.lookup name = some make ∧ make c.file? = .ok c := by
  cases c with
  | tokens file =>
    refine ⟨"tokens", _, ?_, by decide, by decide, rfl, rfl⟩
    cases file <;> rfl
  | parse file => exact ⟨"parse", _, rfl, by decide, by decide, rfl, rfl⟩

theorem subcommand_eq {make : Option String → Except Refusal Command}
    (plain : ∀ name ∈ c.file?, IsFileName name) (made : make c.file? = .ok c)
    (names : words.filter (!isCounting ·) = c.file?.toList) :
    subcommand make words = if (counted words).Bounded
      then if (counted words).conflicting then .error .conflict else .ok ⟨counted words, c⟩
      else .error .countedTooOften := by
  have start : Flags.none.Bounded := by decide
  have read : operands false Flags.none none words = _ := operands_eq plain start names
  rw [Flags.none_plus] at read
  unfold subcommand
  rw [read]
  by_cases bounded : (counted words).Bounded
  · rw [if_pos bounded, if_pos bounded]
    show (if _ then _ else make c.file? >>= _) = _
    rw [made]
    rfl
  · rw [if_neg bounded, if_neg bounded]
    rfl

/-- What the flags in front of the name of a subcommand and those behind it come to. -/
def settle (front back : Flags) (c : Command) : Except Refusal Invocation :=
  if front.Bounded ∧ back.Bounded then
    if front.conflicting || back.conflicting then .error .conflict
    else .ok ⟨front.overriddenBy back, c⟩
  else .error .countedTooOften

/-- **Only the side of the name on which flags stand matters.** -/
theorem read_eq (plain : ∀ name ∈ c.file?, IsFileName name)
    (names : words.filter (!isCounting ·) = c.words) :
    read words = settle (counted (words.takeWhile isCounting))
      (counted (words.dropWhile isCounting)) c := by
  obtain ⟨name, make, spelt, isPlain, other, known, made⟩ := exists_make c
  rw [spelt] at names
  obtain ⟨front, back, rfl, counting, -, behind⟩ := List.filter_eq_cons_iff.mp names
  replace counting : ∀ word ∈ front, isCounting word = true := by simpa using counting
  have front_eq : (front ++ name :: back).takeWhile isCounting = front := by
    simp [List.takeWhile_append_of_pos counting, other]
  have back_eq : (front ++ name :: back).dropWhile isCounting = name :: back := by
    simp [List.dropWhile_append_of_pos counting, other]
  have start : Flags.none.Bounded := by decide
  have atName : readFrom (counted front) (name :: back) = subcommand make back >>= fun inner =>
      if (counted front).conflicting then .error .conflict
      else .ok ⟨(counted front).overriddenBy inner.flags, inner.command⟩ := by
    rw [readFrom.eq_def]
    simp only [isPlain, known]
    rfl
  rw [front_eq, back_eq, counted_cons_of_not back other, read, readFrom_append _ counting start,
    Flags.none_plus, atName, subcommand_eq plain made behind, settle]
  by_cases inFront : (counted front).Bounded
  · by_cases inBack : (counted back).Bounded
    · have both : (counted front).Bounded ∧ (counted back).Bounded := ⟨inFront, inBack⟩
      rw [if_pos inFront, if_pos inBack, if_pos both]
      cases (counted back).conflicting <;> cases (counted front).conflicting <;> rfl
    · rw [if_pos inFront, if_neg inBack, if_neg fun both => inBack both.2]
      rfl
  · rw [if_neg inFront, if_neg fun both => inFront both.1]

/-! ## Totals -/

/-- The totals of a command line decide about it: it is carried out if and only if one of the two
letters is not given and neither is given more than twice; the verbosity is then the difference of
the totals, and the command is the one that is given without the flags. -/
structure DecidedByTotals (words : List String) (c : Command) : Prop where
  accepted_iff : (∃ i, read words = .ok i) ↔
    (counted words).conflicting = false ∧ (counted words).Bounded
  outcome : ∀ i, read words = .ok i → i.command = c
    ∧ i.flags.verbosity = ((counted words).verbose : Int) - ((counted words).quiet : Int)

theorem counted_append (front back : List String) :
    counted (front ++ back) = (counted front).plus (counted back) := by
  simp [counted, Flags.ofLetters_append]

theorem settle_eq_ok_iff {front back : Flags} {i : Invocation} : settle front back c = .ok i ↔
    (front.Bounded ∧ back.Bounded) ∧ (front.conflicting = false ∧ back.conflicting = false)
      ∧ i = ⟨front.overriddenBy back, c⟩ := by
  unfold settle
  by_cases bounded : front.Bounded ∧ back.Bounded
  · cases front.conflicting <;> cases back.conflicting <;> simp [bounded, eq_comm]
  · simp [bounded]

/-- What the totals of two sides allow, either side allows. -/
theorem accepted_of_plus {front back : Flags} (single : (front.plus back).conflicting = false)
    (bounded : (front.plus back).Bounded) : (front.Bounded ∧ back.Bounded)
      ∧ front.conflicting = false ∧ back.conflicting = false := by
  have single' := single
  have bounded' := bounded
  rw [Flags.plus_comm] at single' bounded'
  exact ⟨⟨bounded.of_plus, bounded'.of_plus⟩,
    Flags.conflicting_of_plus single, Flags.conflicting_of_plus single'⟩

/-- The totals of two sides decide about both as the sides themselves do, if and only if there are
no flags on one of them. -/
theorem overriddenBy_iff {front back : Flags} (bounded : front.Bounded ∧ back.Bounded)
    (single : front.conflicting = false ∧ back.conflicting = false) :
    ((front.plus back).conflicting = false ∧ (front.plus back).Bounded)
      ∧ (front.overriddenBy back).verbosity
        = ((front.plus back).verbose : Int) - ((front.plus back).quiet : Int)
    ↔ front = .none ∨ back = .none := by
  rw [(bounded.1.overriddenBy bounded.2).verbosity_eq]
  simp only [Flags.conflicting_eq_false] at single ⊢
  obtain ⟨v, q⟩ := front
  obtain ⟨v', q'⟩ := back
  simp only [Flags.Bounded, Flags.plus, Flags.countBound, Flags.overriddenBy, Flags.none,
    Flags.mk.injEq] at bounded single ⊢
  -- by whether either letter is given behind the name
  split <;> split <;> omega

/-- **The totals decide only where all flags are on one side of the name**, or where the command
line is refused. Else the flags in front and those behind are settled apart. -/
theorem read_arranged (plain : ∀ name ∈ c.file?, IsFileName name)
    (names : words.filter (!isCounting ·) = c.words) :
    read words = settle (counted (words.takeWhile isCounting))
        (counted (words.dropWhile isCounting)) c
      ∧ (DecidedByTotals words c ↔ (∀ i, read words ≠ .ok i)
        ∨ counted (words.takeWhile isCounting) = .none
        ∨ counted (words.dropWhile isCounting) = .none) := by
  have settled := read_eq plain names
  have totals := counted_append (words.takeWhile isCounting) (words.dropWhile isCounting)
  rw [List.takeWhile_append_dropWhile] at totals
  refine ⟨settled, ?_⟩
  generalize counted (words.takeWhile isCounting) = front at settled totals ⊢
  generalize counted (words.dropWhile isCounting) = back at settled totals ⊢
  by_cases accepted : (front.Bounded ∧ back.Bounded)
      ∧ front.conflicting = false ∧ back.conflicting = false
  · -- the command line is carried out, and what the totals say about it is compared
    have ok : read words = .ok ⟨front.overriddenBy back, c⟩ :=
      settled.trans (settle_eq_ok_iff.mpr ⟨accepted.1, accepted.2, rfl⟩)
    rw [or_iff_right fun refused => refused _ ok, ← overriddenBy_iff accepted.1 accepted.2,
      ← totals]
    constructor
    · intro decided
      exact ⟨decided.accepted_iff.mp ⟨_, ok⟩, (decided.outcome _ ok).2⟩
    · rintro ⟨fits, verbosity⟩
      refine ⟨iff_of_true ⟨_, ok⟩ fits, fun i same => ?_⟩
      obtain rfl : _ = i := Except.ok.inj (ok.symm.trans same)
      exact ⟨rfl, verbosity⟩
  · -- it is refused, and then the totals refuse it too
    have refused : ∀ i, read words ≠ .ok i := by
      intro i ok
      have := settle_eq_ok_iff.mp (settled.symm.trans ok)
      exact accepted ⟨this.1, this.2.1⟩
    have exceeded : ¬((counted words).conflicting = false ∧ (counted words).Bounded) := by
      rw [totals]
      exact fun fits => accepted (accepted_of_plus fits.1 fits.2)
    have decided : DecidedByTotals words c :=
      ⟨iff_of_false (fun ⟨i, ok⟩ => refused i ok) exceeded, fun i ok => absurd ok (refused i)⟩
    exact iff_of_true decided (.inl refused)

/-- On both sides of the file, but on one side of the name, the totals decide. -/
theorem read_around_file : read ["parse", "-v", "m", "-v"] = .ok ⟨⟨2, 0⟩, .parse "m"⟩
    ∧ DecidedByTotals ["parse", "-v", "m", "-v"] (.parse "m") := by
  have plain : ∀ name ∈ (Command.parse "m").file?, IsFileName name := by
    rintro name ⟨⟩
    exact ⟨by decide, by decide⟩
  have arranged := @read_arranged _ ["parse", "-v", "m", "-v"] plain rfl
  exact ⟨arranged.1.trans rfl, arranged.2.mpr (.inr (.inl rfl))⟩

/-- **The totals do not decide.** In front of the name, `-v` and `-q` contradict each other; on
either side of it they cancel out. -/
theorem not_decidedByTotals_across :
    read ["-v", "-q", "tokens"] = .error .conflict
      ∧ read ["-v", "tokens", "-q"] = .ok ⟨⟨1, 1⟩, .tokens none⟩
      ∧ ¬DecidedByTotals ["-v", "tokens", "-q"] (.tokens none) := by
  refine ⟨rfl, rfl, fun decided => ?_⟩
  have single := (decided.accepted_iff.mp ⟨_, rfl⟩).1
  revert single
  decide

end CommandLine

end Scriptlet
