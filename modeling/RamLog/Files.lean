import RamLog.Bytes
import RamLog.Fault

/-!
# Files and paths

A path is a string of names between slashes, walked from the left: every name but the last must
lead to a directory, `.` and an empty name stay where they are, `..` goes up. `Files` holds what
is known to lie below the working directory; reading from it is one way to read files among many.
-/
namespace RamLog

/-- Names and paths are octets without meaning as text. -/
abbrev Name := Bytes

namespace Path

def slash : UInt8 := 0x2F

def here : Name := [0x2E]

def up : Name := [0x2E, 0x2E]

def longestName : Nat := 255

def pathLimit : Nat := 4096

/-- The names between slashes, empty ones included. -/
def names : Bytes → List Name
  | [] => [[]]
  | b :: rest =>
    if b = slash then [] :: names rest
    else match names rest with
    | [] => [[b]]
    | name :: more => (b :: name) :: more

/-- The names that lead somewhere. -/
def steps (path : Bytes) : List Name := (names path).filter fun n => n ≠ [] ∧ n ≠ here

/-- The name of the file that a path leads to, if its last step is a name. -/
def fileName? (path : Bytes) : Option Name := (steps path).getLast?.filter (· ≠ up)

/-- A path ends in the name of a file: what stands behind its last slash is the name of no
directory on the way. -/
def EndsIn (path : Bytes) (name : Name) : Prop :=
  (names path).getLast? = some name ∧ name ≠ [] ∧ name ≠ here ∧ name ≠ up

instance (path : Bytes) (name : Name) : Decidable (EndsIn path name) :=
  inferInstanceAs (Decidable (_ ∧ _))

def follow (place : List Name) (step : Name) : List Name :=
  if step = up then place.dropLast else place ++ [step]

/-- The places that steps pass, the first and the last one included. -/
def passed (place : List Name) : List Name → List (List Name)
  | [] => [place]
  | step :: rest => place :: passed (follow place step) rest

end Path

inductive Entry where
  | directory
  | file (content : Bytes)
  deriving DecidableEq, Repr

inductive Place where
  /-- Below the working directory. -/
  | inside (names : List Name)
  /-- Below the root. -/
  | absolute (names : List Name)
  /-- In a directory above the working directory. -/
  | above
  deriving DecidableEq, Repr

def Place.parent : Place → Place
  | .inside [] => .above
  | .inside names => .inside names.dropLast
  | .absolute names => .absolute names.dropLast
  | .above => .above

/-- The place of a name in a directory, unless nothing is known of its entries. -/
def Place.child? : Place → Name → Option Place
  | .inside names, name => some (.inside (names ++ [name]))
  | .absolute names, name => some (.absolute (names ++ [name]))
  | .above, _ => none

/-- The entry at a place in a list of entries; directories lead to what they hold. -/
def Entry.find? (entries : List (List Name × Entry)) (names : List Name) : Option Entry :=
  match entries.find? fun e => e.1 = names with
  | some (_, entry) => some entry
  | none => if names = [] ∨ entries.any fun e => names.isPrefixOf e.1 then some .directory else none

/-- The entries below the working directory. -/
structure Files where
  entries : List (List Name × Entry) := []
  deriving DecidableEq, Repr

namespace Files

/-- The entries outside the working directory that every system has: `/dev/null` and `/tmp`. -/
def everywhere : List (List Name × Entry) := [
  ([[0x64, 0x65, 0x76], [0x6E, 0x75, 0x6C, 0x6C]], .file []),
  ([[0x74, 0x6D, 0x70]], .directory)]

/-- Directories and files by their paths; of two files at one place the later counts. All that a
path passes on its way is a directory. -/
def ofPaths (directories : List Bytes) (files : List (Bytes × Bytes)) : Files where
  entries := files.reverse.map (fun f => ((Path.steps f.1).foldl Path.follow [], .file f.2)) ++
    (directories ++ files.map (·.1)).flatMap fun path =>
      (Path.passed [] (Path.steps path)).map fun place => (place, .directory)

def entry? (files : Files) : Place → Option Entry
  | .inside names => Entry.find? files.entries names
  | .absolute names => Entry.find? everywhere names
  | .above => some .directory

def walk (files : Files) (place : Place) : List Name → Except FileFault Entry
  | [] => match files.entry? place with
    | some entry => .ok entry
    | none => .error .noEntry
  | name :: rest => match files.entry? place with
    | none => .error .noEntry
    | some (.file _) => .error .notDirectory
    | some .directory =>
      if name = [] ∨ name = Path.here then walk files place rest
      else if name = Path.up then walk files place.parent rest
      else if Path.longestName < name.length then .error .nameTooLong
      else match place.child? name with
        | some child => walk files child rest
        | none => .error .noEntry

def read (files : Files) (path : Bytes) : Except FileFault Bytes :=
  if Path.pathLimit ≤ path.length then .error .nameTooLong
  else
    let start := if path.head? = some Path.slash then Place.absolute [] else Place.inside []
    match walk files start (Path.names path) with
    | .error fault => .error fault
    | .ok .directory => .error .isDirectory
    | .ok (.file content) => .ok content

end Files

end RamLog
