/-!
# Kinds of tokens

Every token has one of 32 kinds. A kind has a name, and a symbol by which messages speak of it: the
text itself for operators, punctuation and keywords, and a word in capitals for the rest.
-/

namespace Scriptlet

/-- The kind of a token. -/
inductive Kind where
  | integer | float | string | identifier
  /-- The end of the source. -/
  | eof
  /-- A byte that the language has no use for. -/
  | illegal
  | assign | plus | minus | star | slash | bang | lt | gt | eq | neq
  | comma | semicolon | colon
  | leftParen | rightParen | leftCurly | rightCurly | leftBracket | rightBracket
  | letWord | fnWord | returnWord | ifWord | elseWord | trueWord | falseWord
deriving DecidableEq, Inhabited

namespace Kind

/-- Every kind, literals first and keywords last. -/
def all : List Kind := [
  .integer, .float, .string, .identifier, .eof, .illegal,
  .assign, .plus, .minus, .star, .slash, .bang, .lt, .gt, .eq, .neq,
  .comma, .semicolon, .colon,
  .leftParen, .rightParen, .leftCurly, .rightCurly, .leftBracket, .rightBracket,
  .letWord, .fnWord, .returnWord, .ifWord, .elseWord, .trueWord, .falseWord]

theorem mem_all (k : Kind) : k ∈ all := by cases k <;> decide

/-- The name of a kind. -/
def name : Kind → String
  | integer => "Integer"
  | float => "Float"
  | string => "String"
  | identifier => "Identifier"
  | eof => "Eof"
  | illegal => "Illegal"
  | assign => "Assign"
  | plus => "Plus"
  | minus => "Minus"
  | star => "Star"
  | slash => "Slash"
  | bang => "Bang"
  | lt => "Lt"
  | gt => "Gt"
  | eq => "Eq"
  | neq => "Neq"
  | comma => "Comma"
  | semicolon => "SemiColon"
  | colon => "Colon"
  | leftParen => "LParen"
  | rightParen => "RParen"
  | leftCurly => "LCurly"
  | rightCurly => "RCurly"
  | leftBracket => "LBracket"
  | rightBracket => "RBracket"
  | letWord => "Let"
  | fnWord => "Fn"
  | returnWord => "Return"
  | ifWord => "If"
  | elseWord => "Else"
  | trueWord => "True"
  | falseWord => "False"

/-- The text by which messages speak of a kind. -/
def symbol : Kind → String
  | integer => "INT"
  | float => "FLOAT"
  | string => "STRING"
  | identifier => "IDENT"
  | eof => "EOF"
  | illegal => "ILLEGAL"
  | assign => "="
  | plus => "+"
  | minus => "-"
  | star => "*"
  | slash => "/"
  | bang => "!"
  | lt => "<"
  | gt => ">"
  | eq => "=="
  | neq => "!="
  | comma => ","
  | semicolon => ";"
  | colon => ":"
  | leftParen => "("
  | rightParen => ")"
  | leftCurly => "\x7b"
  | rightCurly => "\x7d"
  | leftBracket => "["
  | rightBracket => "]"
  | letWord => "let"
  | fnWord => "fn"
  | returnWord => "return"
  | ifWord => "if"
  | elseWord => "else"
  | trueWord => "true"
  | falseWord => "false"

/-- The kind with the given name. -/
def ofName? (s : String) : Option Kind := all.find? fun k => k.name == s

/-- No two kinds share a name. -/
theorem ofName?_name (k : Kind) : ofName? k.name = some k := by
  have inAll : ∀ k ∈ all, ofName? k.name = some k := by decide
  exact inAll k (mem_all k)

/-! ## Keywords -/

/-- The reserved words and their kinds. Every other word is an identifier. -/
def keywords : List (String × Kind) := [
  ("let", letWord), ("fn", fnWord), ("return", returnWord), ("if", ifWord), ("else", elseWord),
  ("true", trueWord), ("false", falseWord)]

/-- The kind of a word. -/
def ofWord (word : String) : Kind := (keywords.lookup word).getD identifier

/-- Whether a kind is that of a reserved word. -/
def isKeyword (k : Kind) : Bool := keywords.any fun entry => entry.2 == k

/-- A reserved word is the symbol of its kind. -/
theorem symbol_of_mem_keywords {word : String} {k : Kind} (h : (word, k) ∈ keywords) :
    k.symbol = word := by
  simp only [keywords, List.mem_cons, Prod.mk.injEq, List.not_mem_nil, or_false] at h
  rcases h with ⟨rfl, rfl⟩ | ⟨rfl, rfl⟩ | ⟨rfl, rfl⟩ | ⟨rfl, rfl⟩ | ⟨rfl, rfl⟩ | ⟨rfl, rfl⟩ |
    ⟨rfl, rfl⟩ <;> rfl

/-- A reserved word has the kind that is listed for it. -/
theorem ofWord_of_mem_keywords {word : String} {k : Kind} (h : (word, k) ∈ keywords) :
    ofWord word = k ∧ k ≠ .identifier := by
  simp only [keywords, List.mem_cons, Prod.mk.injEq, List.not_mem_nil, or_false] at h
  rcases h with ⟨rfl, rfl⟩ | ⟨rfl, rfl⟩ | ⟨rfl, rfl⟩ | ⟨rfl, rfl⟩ | ⟨rfl, rfl⟩ | ⟨rfl, rfl⟩ |
    ⟨rfl, rfl⟩
  all_goals exact ⟨rfl, by decide⟩

end Kind

end Scriptlet
