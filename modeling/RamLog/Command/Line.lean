import RamLog.Command.Usage
import RamLog.Scan
import RamLog.Text.Utf8

/-!
# The command line

Arguments are read from left to right into a `Draft`. An option's separate value, and a file
name, are held back until the next argument is known to be an option or a name, or nothing
follows; what is wrong with them is reported then (`settle`). An argument that nothing takes is
reported at once. Help and version act as soon as they are met.
-/
namespace RamLog.Command

open Text

inductive Format where
  | verbatim
  | details
  | csv
  deriving DecidableEq, Repr

def defaultFile : Bytes := Utf8.encode "out.bin".toList

/-- A run that a command line asks for. -/
structure Request where
  file : Bytes := defaultFile
  format : Format := .verbatim
  settings : Settings := {}
  deriving DecidableEq, Repr

inductive Reply where
  | help
  | version
  | run (request : Request)
  | refuse (fault : UsageFault)
  deriving DecidableEq, Repr

/-- What an argument looks like by itself. -/
inductive Token where
  /-- Two dashes: names only from here on. -/
  | separator
  | long (name : Bytes) (value : Option Bytes)
  /-- Letters after one dash; `none` where they are not UTF-8. -/
  | short (letters : List (Option Char))
  | word (text : Bytes)
  deriving DecidableEq, Repr

namespace Token

def dash : UInt8 := 0x2D

def equals : UInt8 := 0x3D

/-- The name of a long option, and its value after the first equals sign. -/
def splitValue : Bytes → Bytes × Option Bytes
  | [] => ([], none)
  | b :: rest =>
    if b = equals then ([], some rest)
    else
      let (name, value) := splitValue rest
      (b :: name, value)

def ofArgument : Bytes → Token
  | [] => .word []
  | first :: rest =>
    if first ≠ dash then .word (first :: rest)
    else match rest with
    | [] => .word [first]
    | second :: tail =>
      if second ≠ dash then .short (Utf8.decode (second :: tail))
      else if tail = [] then .separator
      else
        let (name, value) := splitValue tail
        .long name value

end Token

def Switch.ofName? (name : Bytes) : Option Switch :=
  Switch.list.find? fun switch => Utf8.encode switch.longName.toList = name

def Switch.ofLetter? : Char → Option Switch
  | 'a' => some (.flag .all)
  | 'c' => some (.flag .csv)
  | 'h' => some .help
  | 'V' => some .version
  | _ => none

/-- An argument that is held back. -/
inductive Pending where
  /-- The slot length, whose value has not been met. -/
  | strideValue
  | stride (text : Bytes)
  | file (name : Bytes)
  deriving DecidableEq, Repr

/-- What has been read: flags in the order given, values, and what is held back. -/
structure Draft where
  flags : List Flag := []
  stride : Option Nat := none
  file : Option Bytes := none
  pending : Option Pending := none
  deriving DecidableEq, Repr

inductive Stop where
  | help
  | version
  | fault (fault : UsageFault)
  deriving DecidableEq, Repr

namespace Draft

def fail {α : Type} (fault : UsageFault) : Except Stop α := .error (.fault fault)

def setStride (draft : Draft) (text : Bytes) : Except Stop Draft :=
  if draft.stride.isSome then fail (.repeated .stride)
  else match Utf8.decode? text with
  | none => fail .notUtf8
  | some cs => match Stride.read cs with
    | .error cause => fail (.badStride cs cause)
    | .ok n => .ok { draft with stride := some n }

/-- Takes what is held back. -/
def settle (draft : Draft) : Except Stop Draft :=
  let settled := { draft with pending := none }
  match draft.pending with
  | none => .ok settled
  | some .strideValue => fail .missingValue
  | some (.stride text) => settled.setStride text
  | some (.file name) =>
    if name = [] then fail .emptyName else .ok { settled with file := some name }

def setFlag (draft : Draft) (flag : Flag) : Except Stop Draft :=
  if flag ∈ draft.flags then fail (.repeated (.flag flag))
  else .ok { draft with flags := draft.flags ++ [flag] }

def hasFile (draft : Draft) : Bool :=
  draft.file.isSome || match draft.pending with
    | some (.file _) => true
    | _ => false

def takeName (draft : Draft) (name : Bytes) : Except Stop Draft :=
  if draft.hasFile then fail (.unexpected (Utf8.lossy name))
  else do
    let settled ← draft.settle
    return { settled with pending := some (.file name) }

def takeSwitch (draft : Draft) (switch : Switch) : Except Stop Draft := do
  let settled ← draft.settle
  match switch with
  | .flag flag => settled.setFlag flag
  | .stride => return { settled with pending := some .strideValue }
  | .help => .error .help
  | .version => .error .version

def takeLong (draft : Draft) (name : Bytes) (value : Option Bytes) : Except Stop Draft :=
  match Switch.ofName? name, value with
  | none, _ => fail (.unexpected ('-' :: '-' :: Utf8.lossy name))
  | some switch, none => draft.takeSwitch switch
  | some .stride, some text => do
    let settled ← draft.settle
    settled.setStride text
  | some switch, some text => fail (.unneeded (Utf8.lossy text) switch)

/-- Reads letters after a dash. Where they are not UTF-8, the whole rest is one argument. -/
def takeLetters (draft : Draft) : List (Option Char) → Except Stop Draft
  | [] => .ok draft
  | none :: rest => fail (.unexpected ('-' :: (none :: rest).map (·.getD Utf8.replacement)))
  | some c :: rest => match Switch.ofLetter? c with
    | none => fail (.unexpected ['-', c])
    | some switch => do
      let next ← draft.takeSwitch switch
      next.takeLetters rest

/-- Reads an argument without dashes: a value that is waited for, or a file name. -/
def takeWord (draft : Draft) (text : Bytes) : Except Stop Draft :=
  if draft.pending = some .strideValue then .ok { draft with pending := some (.stride text) }
  else draft.takeName text

/-- Reads arguments behind the separator: all of them are names. -/
def readNames (draft : Draft) : List Bytes → Except Stop Draft
  | [] => draft.settle
  | name :: rest => do
    let next ← draft.takeName name
    next.readNames rest

/-- Reads arguments up to the separator, and names behind it. -/
def readArguments (draft : Draft) : List Bytes → Except Stop Draft
  | [] => draft.settle
  | argument :: rest => match Token.ofArgument argument with
    | .separator => draft.readNames rest
    | .long name value => do
      let next ← draft.takeLong name value
      next.readArguments rest
    | .short letters => do
      let next ← draft.takeLetters letters
      next.readArguments rest
    | .word text => do
      let next ← draft.takeWord text
      next.readArguments rest

/-- The run that a draft asks for, unless it asks for two formats. -/
def request (draft : Draft) : Except Stop Request :=
  match draft.flags.filter (fun flag => flag = .all ∨ flag = .csv) with
  | first :: second :: _ => fail (.conflict first second)
  | chosen => .ok {
      file := draft.file.getD defaultFile
      format := if .all ∈ chosen then .details else if .csv ∈ chosen then .csv else .verbatim
      settings := {
        stride := draft.stride.getD Settings.defaultStride
        strict := .strict ∈ draft.flags
        order := if .sort ∈ draft.flags then .sequence else .file } }

end Draft

def read (arguments : List Bytes) : Reply :=
  match ({} : Draft).readArguments arguments >>= Draft.request with
  | .ok request => .run request
  | .error .help => .help
  | .error .version => .version
  | .error (.fault fault) => .refuse fault

end RamLog.Command
