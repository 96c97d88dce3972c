/-!
# Faults

Why a dump cannot be read, a file not opened, or output not written. Each cause carries the
numbers its message names; `message` gives the wording and `kind` what a run goes by when it
reports the fault.
-/
namespace RamLog

/-- The kinds of faults that a run tells apart. -/
inductive FaultKind where
  | malformed
  | brokenPipe
  | other
  deriving DecidableEq, Repr

/-- A report of the system in its own words. -/
structure SystemReport where
  words : String
  kind : FaultKind := .other
  deriving DecidableEq, Repr

/-- What opening or reading a file can report. -/
inductive FileFault where
  | noEntry
  | notDirectory
  | isDirectory
  | nameTooLong
  | denied
  | other (report : SystemReport)
  deriving DecidableEq, Repr

namespace FileFault

/-- The system's wording of a file fault, with its number. -/
def message : FileFault → String
  | .noEntry => "No such file or directory (os error 2)"
  | .notDirectory => "Not a directory (os error 20)"
  | .isDirectory => "Is a directory (os error 21)"
  | .nameTooLong => "File name too long (os error 36)"
  | .denied => "Permission denied (os error 13)"
  | .other report => report.words

def kind : FileFault → FaultKind
  | .other report => report.kind
  | _ => .other

end FileFault

/-- What writing can report: a buffer of fixed size is full, nobody reads the pipe any more, or
the device is full. -/
inductive WriteFault where
  | bufferFull
  | brokenPipe
  | noSpace
  deriving DecidableEq, Repr

namespace WriteFault

def message : WriteFault → String
  | .bufferFull => "failed to write whole buffer"
  | .brokenPipe => "Broken pipe (os error 32)"
  | .noSpace => "No space left on device (os error 28)"

def kind : WriteFault → FaultKind
  | .brokenPipe => .brokenPipe
  | _ => .other

end WriteFault

inductive Fault where
  /-- Fewer octets than a header has. -/
  | shortHeader (length needed : Nat)
  /-- A window without room for text. -/
  | shortRecord (offset length : Nat)
  /-- The dump ends inside a slot, and the reader was told to refuse that. -/
  | truncated (offset length stride : Nat)
  /-- Slots of this length have no room for text. -/
  | strideTooSmall (stride idLength : Nat)
  /-- The dump's file cannot be read. -/
  | unreadable (cause : FileFault)
  deriving DecidableEq, Repr

namespace Fault

def message : Fault → String
  | .shortHeader length needed => s!"Header too short: {length} of {needed} bytes"
  | .shortRecord offset length => s!"Record at offset {offset} too short: {length} bytes"
  | .truncated offset length stride =>
    s!"Truncated record at offset {offset}: {length} of {stride} bytes"
  | .strideTooSmall stride idLength =>
    s!"Record length {stride} leaves no room for text after the {idLength}-byte id"
  | .unreadable cause => cause.message

/-- A dump cut short is malformed; a file that cannot be read is of the kind the system reports. -/
def kind : Fault → FaultKind
  | .truncated _ _ _ => .malformed
  | .unreadable cause => cause.kind
  | _ => .other

end Fault

end RamLog
