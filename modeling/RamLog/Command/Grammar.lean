import RamLog.Command.Line

/-!
# The grammar of the command line

Which command lines ask for a run, and for which, said without reading them: the arguments spell
parts one after another (`Spells`), and the parts name a request (`Names`).
-/
namespace RamLog.Command.Grammar

open Text

inductive Part where
  | flag (given : Flag)
  | stride (text : Bytes)
  | file (name : Bytes)
  deriving DecidableEq, Repr

def longForm (name : String) : Bytes := Utf8.encode ("--".toList ++ name.toList)

inductive Letter : Flag → UInt8 → Prop
  | all : Letter .all 0x61
  | csv : Letter .csv 0x63

/-- The letters of a group and the flags they give. -/
inductive Letters : Bytes → List Flag → Prop
  | nil : Letters [] []
  | cons {flag : Flag} {letter : UInt8} {letters : Bytes} {flags : List Flag} :
      Letter flag letter → Letters letters flags → Letters (letter :: letters) (flag :: flags)

def Dashed (argument : Bytes) : Prop := argument.head? = some Token.dash

instance (argument : Bytes) : Decidable (Dashed argument) :=
  inferInstanceAs (Decidable (argument.head? = some Token.dash))

/-- The parts that arguments spell. -/
inductive Spells : List Bytes → List Part → Prop
  | nil : Spells [] []
  | flag {rest : List Bytes} {parts : List Part} (given : Flag) :
      Spells rest parts → Spells (longForm given.longName :: rest) (.flag given :: parts)
  | group {rest : List Bytes} {parts : List Part} {letters : Bytes} {flags : List Flag}
      (some_letter : letters ≠ []) : Letters letters flags → Spells rest parts →
      Spells ((Token.dash :: letters) :: rest) (flags.map .flag ++ parts)
  | joined {rest : List Bytes} {parts : List Part} (text : Bytes) : Spells rest parts →
      Spells ((longForm Switch.stride.longName ++ Token.equals :: text) :: rest) (.stride text :: parts)
  | apart {rest : List Bytes} {parts : List Part} {text : Bytes} (plain : ¬ Dashed text) :
      Spells rest parts → Spells (longForm Switch.stride.longName :: text :: rest) (.stride text :: parts)
  | file {rest : List Bytes} {parts : List Part} {name : Bytes} (some_octet : name ≠ [])
      (plain : name = [Token.dash] ∨ ¬ Dashed name) :
      Spells rest parts → Spells (name :: rest) (.file name :: parts)
  | names {names : List Bytes} (some_octet : ∀ name ∈ names, name ≠ []) :
      Spells ([Token.dash, Token.dash] :: names) (names.map .file)

/-- The slot length that a value spells. -/
def StrideText (text : Bytes) (stride : Nat) : Prop :=
  ∃ cs, Utf8.decode? text = some cs ∧ Stride.read cs = .ok stride

/-- The request that parts name: no part twice, not two formats, and defaults for what is not
given. -/
structure Names (parts : List Part) (request : Request) : Prop where
  flags_once : ∀ flag, parts.count (.flag flag) ≤ 1
  one_format : ¬ (.flag .all ∈ parts ∧ .flag .csv ∈ parts)
  file : (∃ name, parts.filter (fun p => p matches .file _) = [.file name] ∧ request.file = name) ∨
    (parts.filter (fun p => p matches .file _) = [] ∧ request.file = defaultFile)
  stride : (∃ text, parts.filter (fun p => p matches .stride _) = [.stride text] ∧
      StrideText text request.settings.stride) ∨
    (parts.filter (fun p => p matches .stride _) = [] ∧ request.settings.stride = Settings.defaultStride)
  details : request.format = .details ↔ .flag .all ∈ parts
  csv : request.format = .csv ↔ .flag .csv ∈ parts
  strict : request.settings.strict = true ↔ .flag .strict ∈ parts
  order : request.settings.order = .sequence ↔ .flag .sort ∈ parts

/-- The command lines that ask for a run, and the run each asks for. -/
def Accepts (arguments : List Bytes) (request : Request) : Prop :=
  ∃ parts, Spells arguments parts ∧ Names parts request

end RamLog.Command.Grammar
