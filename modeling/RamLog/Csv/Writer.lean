import RamLog.Scan
import RamLog.Text.Decimal
import RamLog.Text.Readable

/-!
# Records as CSV

One row per record under a row of names, every field between quotes and every row ended by a
line feed. In a message a quote is written twice; the name of the file is written as it is.
-/
namespace RamLog

open Text

namespace Csv

/-- A message as the inside of a field: each quote twice. -/
def doubleQuotes (text : List Char) : List Char :=
  text.flatMap fun c => if c = '"' then ['"', '"'] else [c]

def field (inside : List Char) : List Char := '"' :: inside ++ ['"']

def row (insides : List (List Char)) : List Char :=
  [','].intercalate (insides.map field) ++ ['\n']

def columns : List (List Char) := ["Id".toList, "Offset".toList, "Msg".toList, "File".toList]

def message (r : Record) : List Char := readable (beforeNul r.text)

/-- The insides of the fields of one record. -/
def insides (fileName : List Char) (r : Record) : List (List Char) := [
  Decimal.digits r.id.toNat, Decimal.digits r.offset, doubleQuotes (message r), fileName]

/-- The records of a journal as CSV text. -/
def document (journal : Journal) (fileName : List Char) : List Char :=
  row columns ++ journal.records.flatMap fun r => row (insides fileName r)

end Csv

end RamLog
