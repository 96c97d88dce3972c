import RamLog.Scan
import RamLog.Text.Decimal
import RamLog.Text.Escaped
import RamLog.Text.Readable

/-!
# The detailed listing

Three sections, each under a rule that names it: the header, the counts of slots, and one line
per record with its offset, its id, and the escaped text before the padding. Every line is
printable ASCII and ends in a line feed.
-/
namespace RamLog

open Text

namespace Listing

def headerRule : List Char := "------------------- Header -------------------".toList

def summaryRule : List Char := "------------------- Summary ------------------".toList

def recordsRule : List Char := "------------------- Records ------------------".toList

/-- A word as an address: eight digits after `0x`. -/
def address (word : UInt32) : List Char := '0' :: 'x' :: Hexadecimal.digits 8 word.toNat

/-- Which slot the logger writes next, if its cursor is at the beginning of one. -/
def place : Option Nat → List Char
  | some slot => "(slot ".toList ++ Decimal.digits slot ++ ")".toList
  | none => "(not a slot)".toList

def headerLines (stride : Nat) : Option Header → List (List Char)
  | none => ["(missing)".toList]
  | some h =>
    if h.isBlank then ["(uninitialised)".toList]
    else [
      "Base: ".toList ++ address h.base,
      "Start: ".toList ++ address h.start,
      "End: ".toList ++ address h.stop,
      "Current: ".toList ++ address h.cursor ++ ' ' :: place (h.nextSlot? stride),
      "Count: ".toList ++ Decimal.digits h.count.toNat]

def leftoverLines : Option Leftover → List (List Char)
  | none => []
  | some rest => ["Trailing: ".toList ++ Decimal.digits rest.length ++ " Bytes at offset ".toList ++
      Decimal.digits rest.offset ++ " (ignored)".toList]

def summaryLines (journal : Journal) : List (List Char) := [
  "Record-Length: ".toList ++ Decimal.digits journal.stride ++ " Bytes".toList,
  "Slots: ".toList ++ Decimal.digits journal.slots ++
    " (populated: ".toList ++ Decimal.digits journal.records.length ++
    ", empty: ".toList ++ Decimal.digits journal.emptySlots ++ ")".toList]

def recordLine (r : Record) : List Char :=
  '[' :: Decimal.column 8 r.offset ++ "] #".toList ++ Decimal.digits r.id.toNat ++ ": ".toList ++
    Escaped.encode (beforeNul r.text)

end Listing

def Journal.detailLines (journal : Journal) : List (List Char) :=
  Listing.headerRule :: Listing.headerLines journal.stride journal.header ++
  Listing.summaryRule :: Listing.summaryLines journal ++ Listing.leftoverLines journal.leftover ++
  Listing.recordsRule :: journal.records.map Listing.recordLine

/-- The pieces in which the detailed listing is written. -/
def Journal.details (journal : Journal) : List Bytes :=
  journal.detailLines.map fun line => Utf8.encode (line ++ ['\n'])

end RamLog
