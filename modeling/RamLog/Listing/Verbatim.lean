import RamLog.Scan
import RamLog.Text.Decimal
import RamLog.Text.Utf8

/-!
# The verbatim listing

One entry per record: its id, a colon between spaces, the whole text field as it is in the dump,
and a line feed.
-/
namespace RamLog

def Record.verbatim (r : Record) : List Bytes :=
  [Text.Utf8.encode (Text.Decimal.digits r.id.toNat ++ " : ".toList), r.text, [0x0A]]

/-- The pieces in which a journal's records are written verbatim. -/
def Journal.verbatim (journal : Journal) : List Bytes := journal.records.flatMap Record.verbatim

end RamLog
