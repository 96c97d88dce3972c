import RamLog.Scan
import RamLog.Text.Plain
import RamLog.Text.Utf8

/-!
# The log on standard error

The log and the program's other messages share one stream. An entry of the log is a heading and a
text; the text is a line unless a name in it holds line feeds or control sequences. A
`Transcript` is the stream read line by line: a line that begins with a heading is a line of the
log, and every other line is rest.
-/
namespace RamLog.Command

open Text

/-- What an entry begins with, apart from the time. -/
structure Heading where
  level : Level
  /-- The part of the program that speaks. -/
  target : String
  deriving DecidableEq, Repr

/-- A heading as it is written: the level in five columns, and the part that speaks. -/
def Heading.written (h : Heading) : List Char :=
  '[' :: h.level.name.toList.rightpad 5 ' ' ++ ' ' :: h.target.toList ++ "] ".toList

structure LogEntry where
  heading : Heading
  /-- All that is written after the heading, up to the line feed that ends the entry, which is
  missing if a control sequence goes on to there. -/
  text : List Char
  deriving DecidableEq, Repr

namespace LogEntry

/-- A message with its further lines set in by four columns. -/
def indent (message : List Char) : List Char :=
  message.flatMap fun c => if c = '\n' then '\n' :: List.replicate 4 ' ' else [c]

def of (heading : Heading) (message : List Char) : LogEntry :=
  ⟨heading, Plain.strip (indent message ++ ['\n'])⟩

def ofEvent (event : Event) : LogEntry :=
  of ⟨event.level, "memlog_parser_lib::memlog_parser"⟩ event.message.toList

def ofJournal (file : Bytes) (journal : Journal) : LogEntry :=
  of ⟨.info, "memlog_parser"⟩ (Utf8.lossy file ++
    s!": {journal.records.length} records in {journal.slots} slots".toList)

def written (e : LogEntry) : List Char := e.heading.written ++ e.text

end LogEntry

/-- The levels down to which the log is shown. -/
inductive Verbosity where
  | silent
  | warn
  | info
  | debug
  deriving DecidableEq, Repr

namespace Verbosity

/-- The verbosity that the name of a level asks for, in letters of either case. Without a setting
warnings are shown; with an empty one, nothing. Finer filters are not spelled this way. -/
def ofSetting : Option String → Verbosity
  | none => .warn
  | some name => match name.toLower with
    | "warn" => .warn
    | "info" => .info
    | "debug" => .debug
    | "trace" => .debug
    | _ => .silent

def covers : Verbosity → Level → Bool
  | .silent, _ => false
  | .warn, level => level = .warn
  | .info, level => level ≠ .debug
  | .debug, _ => true

/-- The filter of a verbosity: it goes by the level of an entry alone. -/
def shows (verbosity : Verbosity) (e : LogEntry) : Bool := verbosity.covers e.heading.level

end Verbosity

/-- What standard error consists of. -/
inductive Mark where
  | heading (given : Heading)
  | char (c : Char)
  deriving DecidableEq, Repr

namespace Mark

def written : Mark → List Char
  | .heading given => given.written
  | .char c => [c]

/-- The lines of a stream with their line feeds; the last line may be without. -/
def lines : List Mark → List (List Mark)
  | [] => []
  | m :: rest =>
    if m = .char '\n' then [m] :: lines rest
    else match lines rest with
    | [] => [[m]]
    | line :: more => (m :: line) :: more

end Mark

/-- A line of the log without its line feed. -/
structure LogLine where
  heading : Heading
  message : List Char
  deriving DecidableEq, Repr

/-- A line that begins with a heading. -/
def LogLine.ofMarks? : List Mark → Option LogLine
  | .heading given :: rest => some ⟨given, (rest.flatMap Mark.written).takeWhile (· ≠ '\n')⟩
  | _ => none

/-- Standard error read line by line. -/
structure Transcript where
  log : List LogLine
  /-- The other lines, one after another. -/
  rest : List Char
  deriving DecidableEq, Repr

namespace Transcript

def ofMarks (marks : List Mark) : Transcript where
  log := (Mark.lines marks).filterMap LogLine.ofMarks?
  rest := ((Mark.lines marks).filter (LogLine.ofMarks? · = none)).flatten.flatMap Mark.written

def of (entries : List LogEntry) (message : List Char) : Transcript :=
  ofMarks (entries.flatMap (fun e => .heading e.heading :: e.text.map .char) ++ message.map .char)

end Transcript

/-- The lines of a stream are the stream, cut up. -/
theorem Mark.flatten_lines (marks : List Mark) : (Mark.lines marks).flatten = marks := by
  induction marks with
  | nil => rfl
  | cons m rest ih =>
    rw [Mark.lines]
    split
    · simp [ih]
    · split
      next h => simp_all
      next line more h => simp_all

end RamLog.Command
