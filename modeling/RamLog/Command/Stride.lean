import RamLog.Record
import RamLog.Text.Decimal

/-!
# The slot length as an argument

Decimal digits after at most one plus sign. The number must fit a 64-bit word and leave room for
text after the id.
-/
namespace RamLog.Command

open Text

inductive StrideFault where
  | empty
  | invalidDigit
  | tooLarge
  | tooSmall
  deriving DecidableEq, Repr

def StrideFault.message : StrideFault → String
  | .empty => "cannot parse integer from empty string"
  | .invalidDigit => "invalid digit found in string"
  | .tooLarge => "number too large to fit in target type"
  | .tooSmall => s!"must be greater than {Record.idLength}"

namespace Stride

/-- The numbers that fit a 64-bit word lie below this one. -/
def limit : Nat := UInt64.size

/-- Reads digits after `high`. A character is first looked at as a digit, then for overflow. -/
def readDigits (high : Nat) : List Char → Except StrideFault Nat
  | [] => .ok high
  | c :: rest => match Decimal.digit? c with
    | none => .error .invalidDigit
    | some d =>
      let number := 10 * high + d
      if number < limit then readDigits number rest else .error .tooLarge

/-- Reads a number: a sign stands before digits only. -/
def readNumber : List Char → Except StrideFault Nat
  | [] => .error .empty
  | ['+'] => .error .invalidDigit
  | '+' :: digits => readDigits 0 digits
  | digits => readDigits 0 digits

def read (text : List Char) : Except StrideFault Nat :=
  match readNumber text with
  | .error fault => .error fault
  | .ok n => if n ≤ Record.idLength then .error .tooSmall else .ok n

end Stride

end RamLog.Command
