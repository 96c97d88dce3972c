import RamLog.Bytes
import RamLog.Fault

/-!
# Records

A slot holds a big-endian id and then text to its end. A slot whose text begins with NUL is
empty, whatever its id.
-/
namespace RamLog

/-- A message found in a dump: where its slot begins, its id, and the whole text field. -/
structure Record where
  offset : Nat
  id : UInt32
  text : Bytes
  deriving DecidableEq, Repr

namespace Record

def idLength : Nat := 4

def emptyMark : UInt8 := 0

/-- Reads the window at an offset: a record, or `none` for an empty slot. -/
def read? (offset : Nat) (window : Bytes) : Except Fault (Option Record) :=
  match window.drop idLength with
  | [] => .error (.shortRecord offset window.length)
  | mark :: rest =>
    if mark = emptyMark then .ok none
    else .ok (some ⟨offset, UInt32.ofNat (Bytes.bigValue (window.take idLength)), mark :: rest⟩)

end Record

end RamLog
