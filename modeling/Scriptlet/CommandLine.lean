/-!
# Command lines

A command line is a list of words. Flags come first, then the name of a subcommand, then flags and
at most one file name. `-v` and `-q` are counted, in groups such as `-vv` too, in front of the
subcommand and behind it: the count behind it wins if there is one. A subcommand takes the words
behind it, and its complaints come before those about the flags in front of it.

## Which complaint wins

Words are taken from left to right and the first word that can not be taken decides. What only the
whole command line can show is looked at in the end: conflicting flags, then a missing file name.
An empty file name is refused late, with the next flag that is known or at the end, so a word that
can not be taken at all is complained about first.
-/

namespace Scriptlet

/-- What a run is asked to do. -/
inductive Command where
  /-- List the tokens of a file, or of the lines of the input. -/
  | tokens (file : Option String)
  /-- Read a file as a program. -/
  | parse (file : String)
deriving DecidableEq

/-- How often each flag about logging was given. -/
structure Flags where
  verbose : Nat
  quiet : Nat
deriving DecidableEq

/-- A command and the flags that were given with it. -/
structure Invocation where
  flags : Flags
  command : Command
deriving DecidableEq

/-- Why a command line is not carried out. -/
inductive Refusal where
  /-- There is no word at all, so help is shown. -/
  | nothingGiven
  /-- Help was asked for. -/
  | help
  /-- The version was asked for. -/
  | version
  /-- There are flags but no subcommand. -/
  | missingSubcommand
  /-- The first word is no subcommand. -/
  | unknownSubcommand
  /-- A file name is missing. -/
  | missingFile
  /-- There is no such flag, or there is one word too many. -/
  | unknownWord
  /-- A file name is empty. -/
  | emptyFile
  /-- A flag that takes no value has one. -/
  | unneededValue
  /-- A flag was counted too often. -/
  | countedTooOften
  /-- Two flags contradict each other. -/
  | conflict
deriving DecidableEq

/-- One line about a refusal. -/
def Refusal.message : Refusal → String
  | nothingGiven => "a subcommand is required"
  | help => "slb [-v | -q]... (tokens [FILE] | parse FILE)"
  | version => "slb_cli 0.0.0"
  | missingSubcommand => "a subcommand is required"
  | unknownSubcommand => "there is no such subcommand"
  | missingFile => "a file name is required"
  | unknownWord => "there is no such flag, or there is one word too many"
  | emptyFile => "a file name is empty"
  | unneededValue => "a flag that takes no value has one"
  | countedTooOften => "a flag is given more than twice"
  | conflict => "-v and -q contradict each other"

namespace Flags

/-- No flag given. -/
def none : Flags := ⟨0, 0⟩

/-- How often a flag may be given in one place. -/
def countBound : Nat := 2

/-- Whether flags were given that contradict each other. -/
def conflicting (f : Flags) : Bool := 0 < f.verbose && 0 < f.quiet

/-- Whether any flag was given. -/
def anyGiven (f : Flags) : Bool := 0 < f.verbose || 0 < f.quiet

/-- Flags in front of a subcommand as seen behind it: a flag that is given there counts anew. -/
def overriddenBy (outer inner : Flags) : Flags where
  verbose := if inner.verbose = 0 then outer.verbose else inner.verbose
  quiet := if inner.quiet = 0 then outer.quiet else inner.quiet

/-- How far the flags move what is logged. -/
def verbosity (f : Flags) : Int := (min f.verbose 2 : Nat) - (min f.quiet 2 : Nat)

end Flags

namespace CommandLine

/-! ## Words -/

/-- A word by its form. -/
inductive Form where
  /-- The word `--`. -/
  | separator
  /-- A flag `--name`, perhaps with `=` and a value. -/
  | long (name : List Char) (hasValue : Bool)
  /-- A `-` and a group of letters. -/
  | group (letters : List Char)
  /-- Anything else. -/
  | plain
deriving DecidableEq

/-- The form of a word. -/
def form (word : String) : Form :=
  match word.toList with
  | ['-', '-'] => .separator
  | '-' :: '-' :: rest => .long (rest.takeWhile (· != '=')) (rest.contains '=')
  | '-' :: c :: rest => .group (c :: rest)
  | _ => .plain

/-- Counts the letters of a group. Help and, where it is known, the version are asked for by the
first letter that does so. -/
def countGroup (versioned : Bool) (f : Flags) : List Char → Except Refusal Flags
  | [] => .ok f
  | 'v' :: rest =>
    if f.verbose < Flags.countBound then
      countGroup versioned { f with verbose := f.verbose + 1 } rest
    else .error .countedTooOften
  | 'q' :: rest =>
    if f.quiet < Flags.countBound then
      countGroup versioned { f with quiet := f.quiet + 1 } rest
    else .error .countedTooOften
  | 'h' :: _ => .error .help
  | 'V' :: _ => .error (if versioned then .version else .unknownWord)
  | _ :: _ => .error .unknownWord

/-- What a long flag asks for. None of them lets the command line go on. -/
def longRefusal (versioned : Bool) (name : List Char) (hasValue : Bool) : Refusal :=
  if name = "help".toList then (if hasValue then .unneededValue else .help)
  else if versioned ∧ name = "version".toList then
    (if hasValue then .unneededValue else .version)
  else .unknownWord

/-! ## Behind the subcommand -/

/-- Whether an empty file name waits to be refused. -/
def emptyWaits (file : Option String) : Bool := file == some ""

/-- The letters that a group behind a subcommand may begin with. -/
def isKnownLetter (c : Char) : Bool := c == 'v' || c == 'q' || c == 'h'

/-- Takes one file name. -/
def takeFile (file : Option String) (word : String) : Except Refusal (Option String) :=
  if file.isNone then .ok (some word) else .error .unknownWord

/-- Takes the flags and the file name behind a subcommand. Behind a separator every word is a file
name. -/
def operands (separated : Bool) (f : Flags) (file : Option String) :
    List String → Except Refusal (Flags × Option String)
  | [] => if emptyWaits file then .error .emptyFile else .ok (f, file)
  | word :: rest =>
    match separated, form word with
    | true, _ | false, .plain => do
      let file ← takeFile file word
      operands separated f file rest
    | false, .separator => operands true f file rest
    | false, .long name hasValue =>
      let refusal := longRefusal false name hasValue
      .error (if emptyWaits file ∧ refusal = .help then .emptyFile else refusal)
    | false, .group letters =>
      if emptyWaits file ∧ (letters.head?.any isKnownLetter) then .error .emptyFile
      else do
        let f ← countGroup false f letters
        operands false f file rest

/-- The subcommands and how each is made from a file name. -/
def subcommands : List (String × (Option String → Except Refusal Command)) := [
  ("tokens", fun file => .ok (.tokens file)),
  ("parse", fun
    | some file => .ok (.parse file)
    | none => .error .missingFile)]

/-- Reads the words behind a subcommand. -/
def subcommand (make : Option String → Except Refusal Command) (words : List String) :
    Except Refusal Invocation := do
  let (f, file) ← operands false .none none words
  if f.conflicting then .error .conflict
  else
    let command ← make file
    return ⟨f, command⟩

/-! ## In front of the subcommand -/

/-- Whether a word can be named where help is asked for. -/
def isTopic (word : String) : Bool := (subcommands.lookup word).isSome || word == "help"

/-- What the words behind `help` ask for: at most one topic. -/
def helpRefusal : List String → Refusal
  | [] => .help
  | [word] => if isTopic word then .help else .unknownSubcommand
  | _ => .unknownSubcommand

/-- Reads flags up to the subcommand, and the rest. -/
def readFrom (f : Flags) : List String → Except Refusal Invocation
  | [] => .error (if f.anyGiven then .missingSubcommand else .nothingGiven)
  | word :: rest =>
    match form word with
    | .separator =>
      match rest with
      | [] => .error (if f.anyGiven then .missingSubcommand else .nothingGiven)
      | next :: _ => .error (if isTopic next then .unknownWord else .unknownSubcommand)
    | .long name hasValue => .error (longRefusal true name hasValue)
    | .group letters => do
      let f ← countGroup true f letters
      readFrom f rest
    | .plain =>
      match subcommands.lookup word with
      | some make => do
        let inner ← subcommand make rest
        if f.conflicting then .error .conflict
        else return ⟨f.overriddenBy inner.flags, inner.command⟩
      | none => .error (if word = "help" then helpRefusal rest else .unknownSubcommand)

/-- Reads a command line. -/
def read (words : List String) : Except Refusal Invocation := readFrom .none words

end CommandLine

end Scriptlet
