import RamLog.Bytes
import RamLog.Text.Hexadecimal

/-!
# Escaped text

Any octets as printable ASCII on one line: a backslash is doubled, other printable octets stand
for themselves, and the rest are written `\xNN` with two upper-case digits (`encode`). `decode?`
takes the escapes back and refuses every other spelling; `Spelling` states the written form by
itself.
-/
namespace RamLog.Text.Escaped

/-- The octets from space to tilde. -/
def isPrintable (b : UInt8) : Bool := 0x20 ≤ b && b ≤ 0x7E

def encodeByte (b : UInt8) : List Char :=
  if b = 0x5C then ['\\', '\\']
  else if isPrintable b then [Char.ofNat b.toNat]
  else '\\' :: 'x' :: Hexadecimal.digits 2 b.toNat

def encode (bs : Bytes) : List Char := bs.flatMap encodeByte

/-- The octet of two digits, when it is one that needs an escape. -/
def escape? (high low : Char) : Option UInt8 := do
  let h ← Hexadecimal.digit? high
  let l ← Hexadecimal.digit? low
  let b := UInt8.ofNat (16 * h + l)
  if isPrintable b then none else some b

def decode? : List Char → Option Bytes
  | [] => some []
  | '\\' :: '\\' :: rest => (decode? rest).map (0x5C :: ·)
  | '\\' :: 'x' :: high :: low :: rest => do
    let b ← escape? high low
    let bs ← decode? rest
    return b :: bs
  | c :: rest =>
    if c ≠ '\\' ∧ ' ' ≤ c ∧ c ≤ '~' then (decode? rest).map (UInt8.ofNat c.toNat :: ·) else none

/-- The written forms: printable characters other than the backslash, doubled backslashes, and two
upper-case digits of an octet that is not printable behind `\x`. -/
inductive Spelling : List Char → Prop
  | nil : Spelling []
  | plain {c : Char} {rest : List Char} (printable : ' ' ≤ c ∧ c ≤ '~') (other : c ≠ '\\') :
      Spelling rest → Spelling (c :: rest)
  | backslash {rest : List Char} : Spelling rest → Spelling ('\\' :: '\\' :: rest)
  | octet {high low : Char} {h l : Nat} {rest : List Char}
      (first : Hexadecimal.digit? high = some h) (second : Hexadecimal.digit? low = some l)
      (unprintable : ¬ (0x20 ≤ 16 * h + l ∧ 16 * h + l ≤ 0x7E)) :
      Spelling rest → Spelling ('\\' :: 'x' :: high :: low :: rest)

end RamLog.Text.Escaped
