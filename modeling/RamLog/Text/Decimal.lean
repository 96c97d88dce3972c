/-!
# Decimal numbers

The digits of a number without sign or leading zeros (`digits`), right-aligned in a column
(`column`), and the value of a digit (`digit?`) or of a string of digits (`value`).
-/
namespace RamLog.Text.Decimal

def digits (n : Nat) : List Char := Nat.toDigits 10 n

/-- The digits right-aligned in a column that wider numbers overflow. -/
def column (width n : Nat) : List Char := (digits n).leftpad width ' '

def digit? (c : Char) : Option Nat :=
  if '0' ≤ c ∧ c ≤ '9' then some (c.toNat - '0'.toNat) else none

/-- The value of a string of digits read after `high`; other characters count as zero. -/
def value (high : Nat) : List Char → Nat
  | [] => high
  | c :: rest => value (10 * high + (digit? c).getD 0) rest

/-- Nothing but digits is written. -/
theorem isDigit_of_mem_digits {n : Nat} {c : Char} (member : c ∈ digits n) : c.isDigit = true :=
  Nat.isDigit_of_mem_toDigits (by decide) (by decide) member

end RamLog.Text.Decimal
