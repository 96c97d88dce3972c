/-!
# Reading CSV

Rows end in line feeds and fields are kept apart by commas. A field between quotes holds any
characters, a quote written twice; a bare field holds no quote, comma or line break. The last row
may go without its line feed.
-/
namespace RamLog.Csv

abbrev Row := List (List Char)

namespace Reader

/-- Where the reader stands in a field. -/
inductive Place where
  /-- In front of a field. -/
  | start
  /-- In a bare field. -/
  | bare
  /-- Between quotes. -/
  | quoted
  /-- After a quote that closes the field, unless another follows. -/
  | closing
  deriving DecidableEq, Repr

/-- What has been read: whole rows, whole fields of the row begun, and the field begun. -/
structure State where
  rows : List Row := []
  fields : Row := []
  field : List Char := []
  place : Place := .start
  deriving DecidableEq, Repr

namespace State

def endField (s : State) : State := { rows := s.rows, fields := s.fields ++ [s.field] }

def endRow (s : State) : State := { rows := s.rows ++ [s.endField.fields] }

def add (s : State) (c : Char) (place : Place) : State :=
  { s with field := s.field ++ [c], place }

/-- Reads one character; `none` where no field can go on with it. -/
def step (s : State) (c : Char) : Option State :=
  match s.place with
  | .start =>
    if c = '"' then some { s with place := .quoted }
    else if c = ',' then some s.endField
    else if c = '\n' then some s.endRow
    else if c = '\r' then none
    else some (s.add c .bare)
  | .bare =>
    if c = ',' then some s.endField
    else if c = '\n' then some s.endRow
    else if c = '"' ∨ c = '\r' then none
    else some (s.add c .bare)
  | .quoted => if c = '"' then some { s with place := .closing } else some (s.add c .quoted)
  | .closing =>
    if c = '"' then some (s.add c .quoted)
    else if c = ',' then some s.endField
    else if c = '\n' then some s.endRow
    else none

/-- The rows when nothing follows; a field between quotes must have been closed. -/
def finish (s : State) : Option (List Row) :=
  match s.place with
  | .quoted => none
  | .start => some (if s.fields = [] then s.rows else s.endRow.rows)
  | .bare | .closing => some s.endRow.rows

def readAll (s : State) : List Char → Option (List Row)
  | [] => s.finish
  | c :: rest => (s.step c).bind (·.readAll rest)

end State

end Reader

/-- The rows of a document, if it is well formed. -/
def read? (document : List Char) : Option (List Row) := ({} : Reader.State).readAll document

end RamLog.Csv
