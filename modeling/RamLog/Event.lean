/-!
# Events

What a scan notes while it reads: slots it passed over, octets it left out, and the counts at
the end.
-/
namespace RamLog

inductive Level where
  | warn
  | info
  | debug
  deriving DecidableEq, Repr

def Level.name : Level → String
  | .warn => "WARN"
  | .info => "INFO"
  | .debug => "DEBUG"

inductive Event where
  | emptySlot (offset : Nat)
  | ignored (offset length stride : Nat)
  | scanned (slots populated empty : Nat)
  deriving DecidableEq, Repr

namespace Event

/-- Octets left out deserve a warning, all else is detail. -/
def level : Event → Level
  | .emptySlot _ => .debug
  | .ignored _ _ _ => .warn
  | .scanned _ _ _ => .debug

def message : Event → String
  | .emptySlot offset => s!"slot at offset {offset} is empty"
  | .ignored offset length stride =>
    s!"ignoring {length} trailing bytes at offset {offset} (record length {stride})"
  | .scanned slots populated empty => s!"scanned {slots} slots: {populated} populated, {empty} empty"

end Event

end RamLog
