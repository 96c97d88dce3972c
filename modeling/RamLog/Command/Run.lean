import RamLog.Command.Line
import RamLog.Command.Log
import RamLog.Csv.Writer
import RamLog.Files
import RamLog.Listing.Details
import RamLog.Listing.Verbatim
import RamLog.Sink

/-!
# A run of the program

What a run leaves behind: its exit status, what reached standard output, the log, and what
standard error says after the log. `serve` does what is asked for once the file has been read, up to
the first failure; `perform` reports that failure behind the log, as far as the log is shown.
`respond` also gives help and reports usage faults, for any way to read files and any filter on the
log; `run` reads the command line first and the files of a working directory.
-/
namespace RamLog.Command

open Text

structure Outcome where
  exit : Nat
  stdout : Bytes := []
  log : List LogEntry := []
  /-- What standard error says after the log. -/
  message : String := ""
  deriving DecidableEq, Repr

def Outcome.transcript (outcome : Outcome) : Transcript :=
  .of outcome.log outcome.message.toList

/-- The name of the file as CSV rows show it. -/
def Request.fileName (request : Request) : List Char :=
  Utf8.lossy ((Path.fileName? request.file).getD [])

def Request.print (request : Request) (journal : Journal) : List Bytes :=
  match request.format with
  | .verbatim => journal.verbatim
  | .details => journal.details
  | .csv => [Utf8.encode (Csv.document journal request.fileName)]

/-- Why a run fails, worded as a whole, and the kind of the fault behind it. -/
structure Failure where
  kind : FaultKind
  message : String
  deriving DecidableEq, Repr

namespace Failure

/-- What a fault of some kind amounts to for a reader of dumps. -/
def verdict : FaultKind → String
  | .malformed => "Malformed log"
  | _ => "File not found"

/-- A dump that cannot be read: the fault with the file in front of it, and what that amounts to. -/
def ofFault (file : Bytes) (fault : Fault) : Failure where
  kind := fault.kind
  message := s!"{verdict fault.kind}: {String.ofList (Utf8.lossy file)}: {fault.message}"

def ofWriteFault (fault : WriteFault) : Failure := ⟨fault.kind, fault.message⟩

/-- The exit status of a run and what it says at its end. A broken pipe is passed over in silence,
wherever it was met. -/
def report : Option Failure → Nat × String
  | none => (0, "")
  | some failure =>
    if failure.kind = .brokenPipe then (0, "") else (1, s!"Error: {failure.message}\n")

end Failure

/-- What serving a request leaves behind: all of the log, and the failure that ended it. -/
structure Service where
  log : List LogEntry
  stdout : Bytes := []
  failure : Option Failure := none
  deriving DecidableEq, Repr

/-- Serves a request, given what reading its file gave. -/
def serve (request : Request) (content : Except FileFault Bytes) (stdout : Sink) : Service :=
  let scanned := scanFile request.settings content
  let notes := scanned.events.map LogEntry.ofEvent
  match scanned.result with
  | .error fault => { log := notes, failure := some (.ofFault request.file fault) }
  | .ok journal =>
    let delivery := stdout.write (request.print journal)
    { log := notes ++ [LogEntry.ofJournal request.file journal]
      stdout := delivery.written
      failure := delivery.fault.map .ofWriteFault }

/-- Serves a request and reports the failure, if there was one. Of the log, the entries that pass a
filter are shown. -/
def perform (request : Request) (content : Except FileFault Bytes) (shown : LogEntry → Bool)
    (stdout : Sink) : Outcome :=
  let service := serve request content stdout
  let (exit, message) := Failure.report service.failure
  { exit, message, stdout := service.stdout, log := service.log.filter shown }

def versionText : String := "memlog-parser 0.1.0\n"

def helpText : String :=
"Dump the records of a memory logger RAM image

Usage: memlog-parser [OPTIONS] [FILE]

Arguments:
  [FILE]  RAM dump to parse [default: out.bin]

Options:
  -a, --all                      print header, summary and escaped text
  -c, --csv                      print CSV
      --sort                     order records by sequence number instead of file position
      --strict                   fail on a truncated trailing record
      --record-len <RECORD_LEN>  record size in bytes, id included [default: 128]
  -h, --help                     Print help
  -V, --version                  Print version
"

/-- Prints a text about the program; whether it arrives does not matter. -/
def tell (text : String) (stdout : Sink) : Outcome where
  exit := 0
  stdout := (stdout.write [Utf8.encode text.toList]).written

/-- Does what a command line asks for; `readFile` gives the content of a file. -/
def respond (reply : Reply) (readFile : Bytes → Except FileFault Bytes) (shown : LogEntry → Bool)
    (stdout : Sink) : Outcome :=
  match reply with
  | .help => tell helpText stdout
  | .version => tell versionText stdout
  | .refuse fault => { exit := 2, message := fault.line }
  | .run request => perform request (readFile request.file) shown stdout

/-- Runs the program on a command line in a working directory. -/
def run (arguments : List Bytes) (files : Files) (verbosity : Verbosity) (stdout : Sink) :
    Outcome :=
  respond (read arguments) files.read verbosity.shows stdout

end RamLog.Command
