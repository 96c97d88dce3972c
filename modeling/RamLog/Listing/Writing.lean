import RamLog.Listing.Details
import RamLog.Listing.Verbatim
import RamLog.Sink

/-!
# Listings written call by call

A listing is written in calls, each of which hands over some octets. The sink takes them, or as many
of them as it has room for, and then the call fails. A call that fails ends the writing, in whatever
loop or branch it stands.
-/
namespace RamLog

open Text

/-- A sink, and what has reached it. -/
structure Port where
  sink : Sink
  written : Bytes := []
  deriving DecidableEq, Repr

/-- Calls in turn, up to one that fails. -/
abbrev Writing := EStateM WriteFault Port

namespace Writing

def call (octets : Bytes) : Writing Unit := fun port =>
  match port.sink with
  | .unlimited => .ok () ⟨.unlimited, port.written ++ octets⟩
  | .limited room fault =>
    if octets.length ≤ room then
      .ok () ⟨.limited (room - octets.length) fault, port.written ++ octets⟩
    else .error fault ⟨.limited 0 fault, port.written ++ octets.take room⟩

def line (text : List Char) : Writing Unit := do
  call (Utf8.encode text)
  call [0x0A]

/-- What reaches a sink, and the fault that ended the writing. -/
def deliver (writing : Writing Unit) (sink : Sink) : Delivery :=
  match writing.run { sink } with
  | .ok _ port => ⟨port.written, none⟩
  | .error fault port => ⟨port.written, some fault⟩

end Writing

open Writing

def Record.writeVerbatim (r : Record) : Writing Unit := do
  call (Utf8.encode (Decimal.digits r.id.toNat))
  call (Utf8.encode " : ".toList)
  call r.text
  call [0x0A]

def Journal.writeVerbatim (journal : Journal) : Writing Unit :=
  journal.records.forM Record.writeVerbatim

namespace Listing

/-- Writes the lines about the header; there is only one about a blank header. -/
def writeHeader (stride : Nat) : Option Header → Writing Unit
  | none => line "(missing)".toList
  | some h => do
    if h.isBlank then
      line "(uninitialised)".toList
      return
    line ("Base: ".toList ++ address h.base)
    line ("Start: ".toList ++ address h.start)
    line ("End: ".toList ++ address h.stop)
    match h.nextSlot? stride with
    | some slot => line ("Current: ".toList ++ address h.cursor ++ ' ' :: place (some slot))
    | none => line ("Current: ".toList ++ address h.cursor ++ ' ' :: place none)
    line ("Count: ".toList ++ Decimal.digits h.count.toNat)

def writeSummary (journal : Journal) : Writing Unit := do
  line ("Record-Length: ".toList ++ Decimal.digits journal.stride ++ " Bytes".toList)
  line ("Slots: ".toList ++ Decimal.digits journal.slots ++
    " (populated: ".toList ++ Decimal.digits journal.records.length ++
    ", empty: ".toList ++ Decimal.digits journal.emptySlots ++ ")".toList)
  if let some rest := journal.leftover then
    line ("Trailing: ".toList ++ Decimal.digits rest.length ++ " Bytes at offset ".toList ++
      Decimal.digits rest.offset ++ " (ignored)".toList)

end Listing

def Journal.writeDetails (journal : Journal) : Writing Unit := do
  line Listing.headerRule
  Listing.writeHeader journal.stride journal.header
  line Listing.summaryRule
  Listing.writeSummary journal
  line Listing.recordsRule
  journal.records.forM fun r => line (Listing.recordLine r)

end RamLog
