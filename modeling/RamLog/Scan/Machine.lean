import RamLog.Scan

/-!
# Scanning in 64-bit words

The scan as a loop over machine words: offset and counters are 64 bits wide and wrap, and the
loop stops at the end of the dump or at a slot that the dump does not hold whole. A run of the loop
keeps every cursor with which its body was entered, also when it ends in a fault, so that what the
words hold there can be stated; and it tells an end of the loop from turns that ran out.
-/
namespace RamLog.Scan.Machine

structure Cursor where
  offset : UInt64
  slots : UInt64 := 0
  empty : UInt64 := 0
  deriving DecidableEq, Repr

def Cursor.first (stride : UInt64) : Cursor :=
  { offset := stride * UInt64.ofNat Dump.headerSlots }

def Cursor.advance (cursor : Cursor) (stride : UInt64) (slot : Option Record) : Cursor where
  offset := cursor.offset + stride
  slots := cursor.slots + 1
  empty := if slot.isNone then cursor.empty + 1 else cursor.empty

/-- The octets from one offset to another, if they lie in order and inside the dump. -/
def window? (data : Bytes) (first last : UInt64) : Option Bytes :=
  if first ≤ last ∧ last.toNat ≤ data.length then
    some ((data.drop first.toNat).take (last.toNat - first.toNat))
  else none

/-- What one turn of the loop comes to. -/
inductive Turn where
  /-- The offset has reached the end, and the body is not entered. -/
  | finished
  /-- The dump does not hold the slot whole. -/
  | cut (rest : Leftover)
  /-- The slot cannot be read. -/
  | failed (fault : Fault)
  /-- A record, or an empty slot. -/
  | slot (slot : Option Record)
  deriving DecidableEq, Repr

def turn (stride : UInt64) (data : Bytes) (cursor : Cursor) : Turn :=
  let size := UInt64.ofNat data.length
  if cursor.offset < size then
    match window? data cursor.offset (cursor.offset + stride) with
    | none => .cut ⟨cursor.offset.toNat, (size - cursor.offset).toNat⟩
    | some bytes =>
      match Record.read? cursor.offset.toNat bytes with
      | .error fault => .failed fault
      | .ok slot => .slot slot
  else .finished

structure Run where
  /-- The cursors with which the body was entered. -/
  entered : List Cursor := []
  events : List Event := []
  records : List Record := []
  /-- The cursor behind the loop. -/
  cursor : Cursor
  /-- The octets left over or the fault that ended the loop; `none` if the turns ran out. -/
  ending : Option (Except Fault (Option Leftover))
  deriving Repr

/-- A run with one slot in front of it. -/
def Run.behind (run : Run) (cursor : Cursor) (slot : Option Record) : Run :=
  { run with
    entered := cursor :: run.entered
    events := (if slot.isNone then [.emptySlot cursor.offset.toNat] else []) ++ run.events
    records := slot.toList ++ run.records }

/-- Runs the loop for at most so many turns. -/
def run (settings : Settings) (stride : UInt64) (data : Bytes) : (turns : Nat) → Cursor → Run
  | 0, cursor => { cursor, ending := none }
  | turns + 1, cursor =>
    match turn stride data cursor with
    | .finished => { cursor, ending := some (.ok none) }
    | .cut rest =>
      let treated := treatLeftover settings (some rest)
      { entered := [cursor], events := treated.events, cursor, ending := some treated.result }
    | .failed fault => { entered := [cursor], cursor, ending := some (.error fault) }
    | .slot slot => (run settings stride data turns (cursor.advance stride slot)).behind cursor slot

/-- What is noted and found when the loop has ended. -/
def Run.close (run : Run) (settings : Settings) (header : Option Header) :
    Except Fault (Option Leftover) → Noted Journal
  | .error fault => ⟨run.events, .error fault⟩
  | .ok leftover =>
    let records := settings.order.arrange run.records
    let slots := run.cursor.slots.toNat
    let emptySlots := run.cursor.empty.toNat
    ⟨run.events ++ [.scanned slots records.length emptySlots],
      .ok { header, records, stride := settings.stride, slots, emptySlots, leftover }⟩

/-- What scanning in words gives. -/
structure Report where
  /-- The cursors with which the body of the loop was entered. -/
  entered : List Cursor := []
  /-- What was noted and found; `none` if the turns ran out. -/
  noted : Option (Noted Journal)

/-- Reads a dump by the loop, in at most so many turns. -/
def scan (settings : Settings) (data : Bytes) (turns : Nat) : Report :=
  match settings.check, readHeader settings.stride data with
  | .error fault, _ => { noted := some ⟨[], .error fault⟩ }
  | .ok (), .error fault => { noted := some ⟨[], .error fault⟩ }
  | .ok (), .ok header =>
    let stride := UInt64.ofNat settings.stride
    let run := run settings stride data turns (.first stride)
    { entered := run.entered, noted := run.ending.map (run.close settings header) }

end RamLog.Scan.Machine
