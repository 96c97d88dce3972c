import RamLog.Header
import RamLog.Record

/-!
# The ring that a logger writes

A logger starts from zeroed slots and writes each message over the next slot, beginning again at
the first slot after the last. The image of its memory is a header block and the slots.
-/
namespace RamLog

structure Message where
  id : UInt32
  text : Bytes
  deriving DecidableEq, Repr

def Message.encode (m : Message) : Bytes := Bytes.big Record.idLength m.id.toNat ++ m.text

namespace Ring

/-- Slots that were never written. -/
def blank (stride slots : Nat) : List Bytes := List.replicate slots (List.replicate stride 0)

/-- The slots after messages were written in turn, the first of them over slot `next`. -/
def write (slots : List Bytes) (next : Nat) : List Message → List Bytes
  | [] => slots
  | m :: rest => write (slots.set (next % slots.length) m.encode) (next + 1) rest

def image (headerBlock : Bytes) (slots : List Bytes) : Bytes := headerBlock ++ slots.flatten

@[simp] theorem length_write (slots : List Bytes) (next : Nat) (messages : List Message) :
    (write slots next messages).length = slots.length := by
  induction messages generalizing slots next with
  | nil => rfl
  | cons m rest ih => simp [write, ih]

end Ring

end RamLog
