/-!
# Numerals

Reading and writing of 64-bit integers in decimal. A numeral is a sign, which may be missing, and at
least one digit. Reading goes from left to right and stops at the first fault: a character that is
no digit, or a digit that takes the value out of range.
-/

namespace Scriptlet.Numeral

/-- Why a text is no numeral. -/
inductive Fault where
  | empty
  | invalidDigit
  | tooLarge
  | tooSmall
deriving DecidableEq

def Fault.message : Fault → String
  | empty => "cannot parse integer from empty string"
  | invalidDigit => "invalid digit found in string"
  | tooLarge => "number too large to fit in target type"
  | tooSmall => "number too small to fit in target type"

/-- The value of a decimal digit. -/
def digit? (c : Char) : Option Nat :=
  if '0' ≤ c ∧ c ≤ '9' then some (c.toNat - '0'.toNat) else none

/-- Reads digits behind those that gave `value`. A value above `bound` is the fault `excess`. -/
def magnitude (bound : Nat) (excess : Fault) : Nat → List Char → Except Fault Nat
  | value, [] => .ok value
  | value, c :: rest =>
    match digit? c with
    | none => .error .invalidDigit
    | some d =>
      if value * 10 + d ≤ bound then magnitude bound excess (value * 10 + d) rest
      else .error excess

/-- The greatest value: 63 bits, all of them set. -/
def greatest : Nat := 0x7FFFFFFFFFFFFFFF

/-- Reads digits, at least one, as a value of zero or more. -/
def upward (digits : List Char) : Except Fault Int64 :=
  if digits.isEmpty then .error .invalidDigit
  else (magnitude greatest .tooLarge 0 digits).map Int64.ofNat

/-- Reads digits, at least one, as a value of zero or less. -/
def downward (digits : List Char) : Except Fault Int64 :=
  if digits.isEmpty then .error .invalidDigit
  else (magnitude (greatest + 1) .tooSmall 0 digits).map fun n => Int64.ofInt (-n)

/-- Reads a numeral. -/
def read (text : String) : Except Fault Int64 :=
  match text.toList with
  | [] => .error .empty
  | '+' :: digits => upward digits
  | '-' :: digits => downward digits
  | digits => upward digits

/-- Writes a value as a numeral, without a sign unless it is below zero. -/
def write (value : Int64) : String := toString value.toInt

end Scriptlet.Numeral
