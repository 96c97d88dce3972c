import RamLog.Bytes

/-!
# UTF-8

Characters to octets (`encode`) and octets to characters (`decode`). The decoder reads one octet
at a time and keeps the character under way; the range of its next octet excludes overlong
forms, surrogates and numbers past U+10FFFF. Octets that spell no character are reported as
`none`, once for each longest run that still could have begun one.
-/
namespace RamLog.Text.Utf8

/-- A character under way: the bits read, how many octets follow the next one, and the range
in which the next one must lie. -/
structure Pending where
  value : Nat
  more : Nat
  low : UInt8
  high : UInt8
  deriving DecidableEq, Repr

/-- What an octet gives: characters or reports, and the character it leaves under way. -/
structure Step where
  out : List (Option Char)
  pending : Option Pending
  deriving DecidableEq, Repr

/-- An octet where a character begins. -/
def first (b : UInt8) : Step :=
  if b < 0x80 then ⟨[some (Char.ofNat b.toNat)], none⟩
  else if b < 0xC2 then ⟨[none], none⟩
  else if b < 0xE0 then ⟨[], some ⟨b.toNat - 0xC0, 0, 0x80, 0xBF⟩⟩
  else if b < 0xF0 then
    ⟨[], some ⟨b.toNat - 0xE0, 1, if b = 0xE0 then 0xA0 else 0x80, if b = 0xED then 0x9F else 0xBF⟩⟩
  else if b < 0xF5 then
    ⟨[], some ⟨b.toNat - 0xF0, 2, if b = 0xF0 then 0x90 else 0x80, if b = 0xF4 then 0x8F else 0xBF⟩⟩
  else ⟨[none], none⟩

/-- One octet. Outside the range it ends the character under way as malformed, and is itself
read as the beginning of the next. -/
def step : Option Pending → UInt8 → Step
  | none, b => first b
  | some p, b =>
    if p.low ≤ b ∧ b ≤ p.high then
      let value := 64 * p.value + (b.toNat - 0x80)
      match p.more with
      | 0 => ⟨[some (Char.ofNat value)], none⟩
      | more + 1 => ⟨[], some ⟨value, more, 0x80, 0xBF⟩⟩
    else
      let start := first b
      ⟨none :: start.out, start.pending⟩

/-- Decoding that takes up a character under way; one that the end cuts off is malformed. -/
def decodeFrom : Option Pending → Bytes → List (Option Char)
  | none, [] => []
  | some _, [] => [none]
  | pending, b :: rest =>
    let now := step pending b
    now.out ++ decodeFrom now.pending rest

/-- The characters that octets spell, with `none` for each malformed stretch. -/
def decode (bs : Bytes) : List (Option Char) := decodeFrom none bs

def replacement : Char := Char.ofNat 0xFFFD

def lossy (bs : Bytes) : List Char := (decode bs).map (·.getD replacement)

def decode? (bs : Bytes) : Option (List Char) := (decode bs).mapM id

def encode (text : List Char) : Bytes := text.flatMap String.utf8EncodeChar

theorem encode_append (a b : List Char) : encode (a ++ b) = encode a ++ encode b := by
  simp [encode]

theorem decodeFrom_cons (pending : Option Pending) (b : UInt8) (rest : Bytes) :
    decodeFrom pending (b :: rest) =
      (step pending b).out ++ decodeFrom (step pending b).pending rest := by
  cases pending <;> rfl

/-- An ASCII octet is its own character. -/
theorem first_ascii (b : UInt8) (h : b < 0x80) : first b = ⟨[some (Char.ofNat b.toNat)], none⟩ := by
  simp [first, h]

end RamLog.Text.Utf8
