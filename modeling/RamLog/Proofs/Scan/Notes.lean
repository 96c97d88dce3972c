import Mathlib.Data.List.Perm.Basic
import RamLog.Proofs.Scan.Failure
import RamLog.Proofs.Scan.Influence
import RamLog.Proofs.Scan.Order

/-!
# The log of a scan

A scan logs the offset of every empty slot, then the octets left out, then the counts. The offsets
are described from the octets of the dump alone (`Dump.EmptySlots`); with the offsets of the records
they are the offsets of all slots, each once (`Dump.perm_offsets`). A scan that fails logs the empty
slots in front of the cut and nothing else (`scan_log`).
-/
namespace RamLog

def Event.entry (event : Event) : Level × String := (event.level, event.message)

def Noted.log {α : Type} (x : Noted α) : List (Level × String) := x.events.map Event.entry

namespace Dump

/-- The offsets, in ascending order, of the full slots behind the header block whose text begins
with zero. -/
structure EmptySlots (stride : Nat) (data : Bytes) (offsets : List Nat) : Prop where
  ascending : offsets.Pairwise (· < ·)
  mem_iff : ∀ offset, offset ∈ offsets ↔ ∃ number, 0 < number ∧
    (number + 1) * stride ≤ data.length ∧ offset = number * stride ∧ data[offset + 4]? = some 0

/-- The octets of a dump leave no choice of the offsets. -/
theorem EmptySlots.unique {stride : Nat} {data : Bytes} {these those : List Nat}
    (h : EmptySlots stride data these) (k : EmptySlots stride data those) : these = those := by
  have distinct : ∀ {offsets}, EmptySlots stride data offsets → offsets.Nodup :=
    fun slots => slots.ascending.imp Nat.ne_of_lt
  have same : these.Perm those := by
    apply (List.perm_ext_iff_of_nodup (distinct h) (distinct k)).mpr
    intro offset
    rw [h.mem_iff, k.mem_iff]
  apply List.Perm.eq_of_pairwise _ h.ascending k.ascending same
  intro a b _ _ less more
  exact absurd less (Nat.lt_asymm more)

def emptyOffsets (stride : Nat) (data : Bytes) : List Nat :=
  ((windows stride data).filter Window.isEmpty).map (·.offset)

/-- Empty windows are the full slots whose text begins with zero. -/
theorem emptySlots_emptyOffsets {stride : Nat} (wide : Record.idLength < stride) (data : Bytes) :
    EmptySlots stride data (emptyOffsets stride data) where
  ascending := by
    rw [emptyOffsets, List.pairwise_map]
    exact (pairwise_offset_windows (Nat.zero_lt_of_lt wide) data).filter _
  mem_iff := by
    intro offset
    simp only [emptyOffsets, List.mem_map, List.mem_filter,
      mem_windows_iff (Nat.zero_lt_of_lt wide)]
    constructor
    · rintro ⟨_, ⟨⟨number, some_number, inside, rfl⟩, empty⟩, rfl⟩
      exact ⟨number, some_number, inside, rfl, (isEmpty_slot wide _ number data).mp empty⟩
    · rintro ⟨number, some_number, inside, rfl, zero⟩
      exact ⟨_, ⟨⟨number, some_number, inside, rfl⟩, (isEmpty_slot wide _ number data).mpr zero⟩, rfl⟩

/-- The notes about the slots name the empty ones and no others. -/
theorem slotNotes_eq (stride : Nat) (data : Bytes) :
    Scan.slotNotes stride data = (emptyOffsets stride data).map .emptySlot := by
  rw [Scan.slotNotes, emptyOffsets]
  induction windows stride data with
  | nil => rfl
  | cons w rest ih =>
    rw [List.flatMap_cons, ih, Window.notes, List.filter_cons]
    cases w.isEmpty <;> rfl

/-- A record has the offset of its window. -/
theorem map_offset_records (windows : List Window) :
    (windows.filterMap Window.record?).map (·.offset) =
      (windows.filter fun w => !w.isEmpty).map (·.offset) := by
  induction windows with
  | nil => rfl
  | cons w rest ih =>
    rw [List.filterMap_cons, List.filter_cons, Window.record?]
    cases w.isEmpty
    · exact congrArg (w.offset :: ·) ih
    · exact ih

/-- Every slot is named empty or holds a record, and none does both. -/
theorem perm_offsets (stride : Nat) (data : Bytes) :
    (emptyOffsets stride data ++
      ((windows stride data).filterMap Window.record?).map (·.offset)).Perm
        ((List.range (slotCount stride data)).map fun i => (i + 1) * stride) := by
  have split := (List.filter_append_perm Window.isEmpty (windows stride data)).map (·.offset)
  have offsets : (windows stride data).map (·.offset) =
      (List.range (slotCount stride data)).map fun i => (i + 1) * stride := by
    rw [windows_eq, List.map_map]
    rfl
  rw [List.map_append, offsets] at split
  rw [map_offset_records]
  exact split

end Dump

namespace Scan

variable {settings : Settings} {data : Bytes}

/-- The order of the records has no influence on what is noted. -/
theorem events_order (settings : Settings) (order : Order) (data : Bytes) :
    (scan { settings with order } data).events = (scan settings data).events := by
  by_cases narrow : settings.stride ≤ Record.idLength
  · rw [scan_eq_strideTooSmall { settings with order } data narrow,
      scan_eq_strideTooSmall settings data narrow]
  · have same : Alike (fun _ _ => True) (scan settings data) (scan { settings with order } data) :=
      alike (Nat.lt_of_not_le narrow) rfl rfl rfl rfl (endNotes_order settings order data) trivial
    exact same.events_eq.symm

/-- A scan that fails at a cut has noted the empty slots. -/
theorem events_of_fault {fault : Fault} (wide : Record.idLength < settings.stride)
    (failed : (scan settings data).result = .error fault) :
    (scan settings data).events = (Dump.emptyOffsets settings.stride data).map .emptySlot := by
  obtain ⟨strict, rest, found, -⟩ := eq_truncated_of_result wide failed
  rw [scan_eq_truncated settings data rest wide strict found, Dump.slotNotes_eq]

/-- A scan that succeeds has noted the empty slots and then what stands at the end. -/
theorem events_of_journal {journal : Journal} (scanned : (scan settings data).result = .ok journal) :
    (scan settings data).events =
      (Dump.emptyOffsets settings.stride data).map .emptySlot ++ endNotes journal := by
  obtain ⟨wide, rfl⟩ := eq_ofDump_of_result scanned
  rw [scan_eq_ok settings data wide (tolerated_of_result scanned), Dump.slotNotes_eq]

/-- The slots that a dump holds whole are those in front of the cut. -/
theorem inside_iff_before_cut (positive : 0 < settings.stride) (number : Nat) :
    (number + 1) * settings.stride ≤ data.length ↔
      number * settings.stride < data.length / settings.stride * settings.stride := by
  rw [Nat.mul_lt_mul_right positive, ← Nat.le_div_iff_mul_le positive]
  exact Iff.rfl

end Scan

/-- What a scan logs, in order: the empty slots one by one, at ascending offsets; then the octets left
out, if there are any; then the counts. A scan that fails logs the empty slots in front of the cut,
or nothing if the stride is at fault, and the order of the records has no influence. The offsets
logged as empty and those of the records are the offsets of all slots, each of them once. -/
theorem scan_log (settings : Settings) (data : Bytes) :
    let stride := settings.stride
    let log := (scan settings data).log
    (∀ order, (scan { settings with order } data).log = log) ∧
    (stride ≤ 4 → log = []) ∧
    (4 < stride → ∃ empty, Dump.EmptySlots stride data empty ∧
      (∀ fault, (scan settings data).result = .error fault →
        log = empty.map (fun offset => (.debug, s!"slot at offset {offset} is empty")) ∧
        ∃ cut length, fault = .truncated cut length stride ∧
          ∀ number, (number + 1) * stride ≤ data.length ↔ number * stride < cut) ∧
      (∀ j, (scan settings data).result = .ok j →
        log =
          empty.map (fun offset => (.debug, s!"slot at offset {offset} is empty")) ++
          j.leftover.toList.map (fun ⟨offset, length⟩ => (.warn,
            s!"ignoring {length} trailing bytes at offset {offset} (record length {stride})")) ++
          [(.debug,
            s!"scanned {j.slots} slots: {j.records.length} populated, {j.emptySlots} empty")] ∧
        (j.leftover ≠ none → settings.strict = false) ∧
        empty.length = j.emptySlots ∧
        (empty ++ j.records.map (·.offset)).Perm
          ((List.range j.slots).map fun i => (i + 1) * stride))) := by
  intro stride log
  refine ⟨?_, ?_, ?_⟩
  · intro order
    exact congrArg (List.map Event.entry) (Scan.events_order settings order data)
  · intro narrow
    show (scan settings data).log = []
    rw [Scan.scan_eq_strideTooSmall settings data narrow]
    rfl
  · intro wide
    have positive : 0 < stride := Nat.zero_lt_of_lt wide
    refine ⟨_, Dump.emptySlots_emptyOffsets wide data, ?_, ?_⟩
    · intro fault failed
      obtain ⟨_, rest, found, rfl⟩ := Scan.eq_truncated_of_result wide failed
      obtain ⟨_, _, rfl⟩ := (Dump.leftover?_eq_some_iff positive data rest).mp found
      refine ⟨?_, _, _, rfl, Scan.inside_iff_before_cut positive⟩
      show (scan settings data).events.map Event.entry = _
      rw [Scan.events_of_fault wide failed, List.map_map]
      rfl
    · intro journal scanned
      have noted := Scan.events_of_journal scanned
      have tolerated := Scan.tolerated_of_result scanned
      obtain ⟨_, rfl⟩ := Scan.eq_ofDump_of_result scanned
      refine ⟨?_, ?_, ?_, ?_⟩
      · show (scan settings data).events.map Event.entry = _
        rw [noted, Scan.endNotes, ← List.append_assoc, List.map_append, List.map_append, List.map_map,
          List.map_map]
        rfl
      · intro left
        exact Bool.eq_false_iff.mpr fun strict => left (tolerated strict)
      · rw [Dump.emptyOffsets, List.length_map, ← List.countP_eq_length_filter]
        rfl
      · have records := (Scan.perm_arrange settings.order
          ((Dump.windows stride data).filterMap Window.record?)).map (·.offset)
        exact (records.append_left _).trans (Dump.perm_offsets stride data)

/-- Slots of five octets behind the header block, an empty one and a message, and two octets more. -/
def Dump.cutSample : Bytes := [1, 1, 1, 1, 1, 0, 0, 0, 9, 0, 0, 0, 0, 1, 0x41, 7, 7]

theorem scan_log_cut :
    3 ≤ 4 ∧ (scan { stride := 3 } Dump.cutSample).log = [] ∧
      4 < 5 ∧ (scan { stride := 5 } Dump.cutSample).log = [
        (.debug, "slot at offset 5 is empty"),
        (.warn, "ignoring 2 trailing bytes at offset 15 (record length 5)"),
        (.debug, "scanned 2 slots: 1 populated, 1 empty")] ∧
      (scan { stride := 5, strict := true } Dump.cutSample).log =
        [(.debug, "slot at offset 5 is empty")] := by
  have narrow : 3 ≤ 4 := by decide
  have wide : 4 < 5 := by decide
  have scanned : (scan { stride := 5 } Dump.cutSample).result = .ok {
      records := [⟨10, 1, [0x41]⟩]
      stride := 5
      slots := 2
      emptySlots := 1
      leftover := some ⟨15, 2⟩ } := rfl
  have failed : (scan { stride := 5, strict := true } Dump.cutSample).result =
      .error (.truncated 15 2 5) := rfl
  obtain ⟨_, refused, _⟩ := scan_log { stride := 3 } Dump.cutSample
  obtain ⟨_, _, lenient⟩ := scan_log { stride := 5 } Dump.cutSample
  obtain ⟨_, _, strict⟩ := scan_log { stride := 5, strict := true } Dump.cutSample
  obtain ⟨empty, slots, _, ends⟩ := lenient wide
  obtain ⟨log, _, _, account⟩ := ends _ scanned
  -- Of the offsets of the two slots, the record takes the second.
  have five : empty = [5] := List.perm_singleton.mp ((List.perm_append_right_iff [10]).mp account)
  obtain ⟨before, cutSlots, cut, _⟩ := strict wide
  obtain ⟨cutLog, _⟩ := cut _ failed
  rw [cutSlots.unique slots, five] at cutLog
  rw [five] at log
  exact ⟨narrow, refused narrow, wide, log, cutLog⟩

end RamLog
