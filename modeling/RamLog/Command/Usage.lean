import RamLog.Command.Stride
import RamLog.Text.Plain

/-!
# Usage faults

The options of the command line, why a command line is refused, and the first line of the
message about it. Options are always named by their long form. What the user wrote is quoted
without control sequences.
-/
namespace RamLog.Command

open Text

inductive Flag where
  | all
  | csv
  | sort
  | strict
  deriving DecidableEq, Repr

inductive Switch where
  | flag (given : Flag)
  /-- The slot length, the one option with a value. -/
  | stride
  | help
  | version
  deriving DecidableEq, Repr

def Flag.longName : Flag → String
  | .all => "all"
  | .csv => "csv"
  | .sort => "sort"
  | .strict => "strict"

namespace Switch

def list : List Switch :=
  [.flag .all, .flag .csv, .flag .sort, .flag .strict, .stride, .help, .version]

def longName : Switch → String
  | .flag given => given.longName
  | .stride => "record-len"
  | .help => "help"
  | .version => "version"

/-- How messages name an option. -/
def display : Switch → String
  | .stride => "--" ++ longName .stride ++ " <RECORD_LEN>"
  | switch => "--" ++ switch.longName

end Switch

inductive UsageFault where
  /-- Two flags that exclude each other, in the order given. -/
  | conflict (first second : Flag)
  | repeated (switch : Switch)
  /-- An argument that nothing takes. -/
  | unexpected (argument : List Char)
  /-- A value for an option without one. -/
  | unneeded (value : List Char) (switch : Switch)
  /-- The slot length without a value. -/
  | missingValue
  | emptyName
  | badStride (value : List Char) (cause : StrideFault)
  | notUtf8
  deriving DecidableEq, Repr

namespace UsageFault

/-- A user's text as messages quote it. -/
def quoted (text : List Char) : String := "'" ++ String.ofList (Plain.strip text) ++ "'"

def message : UsageFault → String
  | .conflict first second =>
    "the argument '--" ++ first.longName ++ "' cannot be used with '--" ++ second.longName ++ "'"
  | .repeated switch => s!"the argument '{switch.display}' cannot be used multiple times"
  | .unexpected argument => "unexpected argument " ++ quoted argument ++ " found"
  | .unneeded value switch =>
    "unexpected value " ++ quoted value ++
      s!" for '{switch.display}' found; no more were expected"
  | .missingValue =>
    s!"a value is required for '{Switch.stride.display}' but none was supplied"
  | .emptyName => "a value is required for '[FILE]' but none was supplied"
  | .badStride value cause =>
    "invalid value " ++ quoted value ++ s!" for '{Switch.stride.display}': {cause.message}"
  | .notUtf8 => "invalid UTF-8 was detected in one or more arguments"

/-- The first line of the message. -/
def line (fault : UsageFault) : String :=
  "error: " ++ String.ofList (fault.message.toList.takeWhile (· ≠ '\n'))

end UsageFault

end RamLog.Command
