import RamLog.Bytes
import RamLog.Fault

/-!
# Sinks

Where output goes, piece by piece. A sink takes everything, or has room for so many octets and
then fails: a piece that does not fit is written as far as it does, and nothing is written after
it.
-/
namespace RamLog

inductive Sink where
  | unlimited
  /-- Room for so many octets, and what is reported when there is no more. -/
  | limited (room : Nat) (fault : WriteFault)
  deriving DecidableEq, Repr

/-- What reached a sink, and the fault that stopped the writing. -/
structure Delivery where
  written : Bytes
  fault : Option WriteFault
  deriving DecidableEq, Repr

namespace Sink

def buffer (capacity : Nat) : Sink := .limited capacity .bufferFull

def closedPipe : Sink := .limited 0 .brokenPipe

def fullDevice : Sink := .limited 0 .noSpace

/-- Writes pieces in turn until one does not fit. -/
def writeWithin (fault : WriteFault) : (room : Nat) → List Bytes → Delivery
  | _, [] => ⟨[], none⟩
  | room, piece :: rest =>
    if piece.length ≤ room then
      let after := writeWithin fault (room - piece.length) rest
      ⟨piece ++ after.written, after.fault⟩
    else ⟨piece.take room, some fault⟩

def write : Sink → List Bytes → Delivery
  | .unlimited, pieces => ⟨pieces.flatten, none⟩
  | .limited room fault, pieces => writeWithin fault room pieces

end Sink

end RamLog
