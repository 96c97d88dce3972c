import RamLog.Bytes
import RamLog.Fault

/-!
# The logger's header

The first slot of a dump holds the logger's own state: five little-endian words. Addresses are
absolute and `base` is the address of the header itself, so an address names a slot when it lies
a whole number of strides above `base`.
-/
namespace RamLog

/-- The state that a logger keeps in front of its slots. -/
structure Header where
  base : UInt32
  start : UInt32
  stop : UInt32
  cursor : UInt32
  count : UInt32
  deriving DecidableEq, Repr

namespace Header

def length : Nat := 20

/-- The words in the order in which they are stored. -/
def words (h : Header) : List UInt32 := [h.base, h.start, h.stop, h.cursor, h.count]

def wordAt (data : Bytes) (offset : Nat) : UInt32 :=
  UInt32.ofNat (Bytes.littleValue ((data.drop offset).take 4))

def decode (data : Bytes) : Except Fault Header :=
  if data.length < length then .error (.shortHeader data.length length)
  else .ok ⟨wordAt data 0, wordAt data 4, wordAt data 8, wordAt data 12, wordAt data 16⟩

def encode (h : Header) : Bytes := h.words.flatMap fun w => Bytes.little 4 w.toNat

/-- Whether the memory was wiped or never written: every word has all bits set, or none. -/
def isBlank (h : Header) : Bool := h.words.all (· = 0xFFFFFFFF) || h.words.all (· = 0)

/-- The number of the slot that begins at an address. -/
def slotAt? (h : Header) (address : UInt32) (stride : Nat) : Option Nat :=
  let distance := address.toNat - h.base.toNat
  if h.base ≤ address ∧ stride ≠ 0 ∧ distance % stride = 0 then some (distance / stride) else none

def nextSlot? (h : Header) (stride : Nat) : Option Nat := h.slotAt? h.cursor stride

@[simp] theorem length_encode (h : Header) : h.encode.length = length := by
  simp [encode, words, length]

/-- Reading fails on fewer octets than a header has, and on nothing else. -/
theorem decode_eq_error_iff (data : Bytes) (fault : Fault) :
    decode data = .error fault ↔
      data.length < length ∧ fault = .shortHeader data.length length := by
  unfold decode
  split <;> simp [*, eq_comm]

end Header

end RamLog
