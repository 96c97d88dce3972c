import RamLog.Dump
import RamLog.Header
import RamLog.Noted
import RamLog.Record

/-!
# Scanning a dump

`scan` reads the header and every full slot of a dump, keeps the records, and notes what it
passes over. Octets after the last full slot are left out with a warning, or refused when the
settings are strict. Records come in the order of the dump or of their ids; the sort is stable,
so records of one id stay in the order of the dump.
-/
namespace RamLog

inductive Order where
  /-- As the slots lie in the dump. -/
  | file
  /-- By ascending id, which undoes the wrap of a ring of slots. -/
  | sequence
  deriving DecidableEq, Repr

def Order.arrange : Order → List Record → List Record
  | .file, records => records
  | .sequence, records => records.mergeSort fun a b => decide (a.id ≤ b.id)

def Settings.defaultStride : Nat := 128

structure Settings where
  /-- The length of a slot, id included. -/
  stride : Nat := Settings.defaultStride
  /-- Whether octets after the last full slot are refused. -/
  strict : Bool := false
  order : Order := .file
  deriving DecidableEq, Repr

/-- Refuses slots without room for text. -/
def Settings.check (settings : Settings) : Except Fault Unit :=
  if settings.stride ≤ Record.idLength then
    .error (.strideTooSmall settings.stride Record.idLength)
  else .ok ()

structure Journal where
  header : Option Header := none
  records : List Record := []
  stride : Nat := Settings.defaultStride
  /-- The number of full slots, empty ones included. -/
  slots : Nat := 0
  emptySlots : Nat := 0
  leftover : Option Leftover := none
  deriving DecidableEq, Repr

namespace Scan

/-- The header, when both the header block and the dump have room for one. -/
def readHeader (stride : Nat) (data : Bytes) : Except Fault (Option Header) :=
  if Header.length ≤ stride ∧ Header.length ≤ data.length then
    (Header.decode (data.take Header.length)).map some
  else .ok none

/-- Reads slots in turn and notes the empty ones. -/
def readSlots : List Window → Noted (List (Option Record))
  | [] => pure []
  | w :: rest => do
    let slot ← Noted.ofExcept (Record.read? w.offset w.bytes)
    if slot.isNone then Noted.note (.emptySlot w.offset)
    (slot :: ·) <$> readSlots rest

/-- Leaves out the octets after the last full slot, or refuses them. -/
def treatLeftover (settings : Settings) : Option Leftover → Noted (Option Leftover)
  | none => pure none
  | some rest =>
    if settings.strict then
      Noted.ofExcept (.error (.truncated rest.offset rest.length settings.stride))
    else do
      Noted.note (.ignored rest.offset rest.length settings.stride)
      return some rest

end Scan

def scan (settings : Settings) (data : Bytes) : Noted Journal := do
  Noted.ofExcept settings.check
  let header ← Noted.ofExcept (Scan.readHeader settings.stride data)
  let slots ← Scan.readSlots (Dump.windows settings.stride data)
  let leftover ← Scan.treatLeftover settings (Dump.leftover? settings.stride data)
  let records := settings.order.arrange (slots.filterMap id)
  let emptySlots := slots.countP (·.isNone)
  Noted.note (.scanned slots.length records.length emptySlots)
  return {
    header, records, emptySlots, leftover
    stride := settings.stride
    slots := slots.length }

/-- Reads a dump from what opening and reading its file gave. Settings are looked at first. -/
def scanFile (settings : Settings) (content : Except FileFault Bytes) : Noted Journal := do
  Noted.ofExcept settings.check
  match content with
  | .error cause => Noted.ofExcept (.error (.unreadable cause))
  | .ok data => scan settings data

end RamLog
