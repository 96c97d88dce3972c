import Mathlib.Data.List.Basic
import RamLog.Proofs.Dump.Layout
import RamLog.Proofs.Scan.Account

/-!
# The format of a dump

A lenient scan in the order of the dump finds what the parts of the dump hold, octet by octet: a
record in every block whose text does not begin with zero, the counts, the octets left over, and
the header. The right-hand sides are written without the scan and its windows, and with the numbers
of the format: an id of four octets, a header of twenty.
-/
namespace RamLog

/-- The number that four octets spell, the most significant first. -/
def Layout.blockId (block : Bytes) : UInt32 :=
  UInt32.ofNat ((block.take 4).foldl (fun high b => 256 * high + b.toNat) 0)

/-- A full slot holds a record unless its fifth octet is zero. -/
theorem record?_block (offset : Nat) (block : Bytes) :
    Window.record? ⟨offset, block⟩ = if block[4]? = some 0 then none
      else some { offset, id := Layout.blockId block, text := block.drop 4 } := by
  by_cases zero : block[4]? = some 0
  · have empty : Window.isEmpty ⟨offset, block⟩ = true := decide_eq_true zero
    rw [Window.record?, if_pos empty, if_pos zero]
  · have full : ¬ Window.isEmpty ⟨offset, block⟩ = true := fun empty => zero (of_decide_eq_true empty)
    rw [Window.record?, if_neg full, if_neg zero, Layout.blockId, ← Bytes.bigValue_eq_foldl]
    rfl

namespace Layout

variable {stride : Nat}

/-- The records of a dump, read off its blocks; the first block after the header is number one. -/
def records (layout : Layout stride) : List Record :=
  (layout.blocks.zipIdx 1).filterMap fun (block, number) =>
    if block[4]? = some 0 then none
    else some { offset := number * stride, id := blockId block, text := block.drop 4 }

def emptyCount (layout : Layout stride) : Nat := layout.blocks.countP (·[4]? = some 0)

def leftover? (layout : Layout stride) : Option Leftover :=
  if layout.tail = [] then none
  else some { offset := (layout.blocks.length + 1) * stride, length := layout.tail.length }

/-- The windows that hold a record hold that of their block. -/
theorem filterMap_record?_windows (layout : Layout stride) :
    layout.windows.filterMap Window.record? = layout.records := by
  rw [windows, List.filterMap_map, records]
  exact List.filterMap_congr fun (block, number) _ => record?_block (number * stride) block

theorem countP_isEmpty_windows (layout : Layout stride) :
    layout.windows.countP Window.isEmpty = layout.emptyCount := by
  rw [windows, List.countP_map, emptyCount]
  conv => rhs; rw [← List.zipIdx_map_fst 1 layout.blocks, List.countP_map]
  rfl

/-- The blocks are the records and the empty slots. -/
theorem length_blocks (layout : Layout stride) :
    layout.blocks.length = layout.records.length + layout.emptyCount := by
  have account := Window.length_records_add_empty layout.windows
  rw [filterMap_record?_windows, countP_isEmpty_windows] at account
  rw [account, windows, List.length_map, List.length_zipIdx]

/-- A scan of a dump that is put together from parts finds the parts. -/
theorem ofDump_bytes (settings : Settings) (layout : Layout settings.stride) :
    Journal.ofDump settings layout.bytes = {
      header := Scan.header? settings.stride layout.bytes
      records := settings.order.arrange layout.records
      stride := settings.stride
      slots := layout.blocks.length
      emptySlots := layout.emptyCount
      leftover := layout.leftover? } := by
  rw [Journal.ofDump, windows_bytes, filterMap_record?_windows, countP_isEmpty_windows,
    slotCount_bytes, leftover?_bytes, leftover?]

end Layout

/-- The header of a dump: its first twenty octets decoded if the stride and the octets given have
room for them, else none. -/
inductive HeaderOf (stride : Nat) (data : Bytes) : Option Header → Prop
  | decoded {h : Header} (room : 20 ≤ stride ∧ 20 ≤ data.length)
      (words : Header.decode (data.take 20) = .ok h) : HeaderOf stride data (some h)
  | missing (short : ¬ (20 ≤ stride ∧ 20 ≤ data.length)) : HeaderOf stride data none

theorem HeaderOf.eq_none {stride : Nat} {data : Bytes} {header : Option Header}
    (found : HeaderOf stride data header) (narrow : stride < 20) : header = none := by
  cases found with
  | decoded room _ => omega
  | missing _ => rfl

theorem headerOf_header? (stride : Nat) (data : Bytes) :
    HeaderOf stride data (Scan.header? stride data) := by
  unfold Scan.header?
  split
  next room =>
    obtain ⟨h, decoded⟩ := Scan.exists_decode data room.2
    rw [decoded]
    exact .decoded room decoded
  next short => exact .missing short

/-- Only the header block counts for the header. -/
theorem header?_layout {stride : Nat} (layout : Layout stride) :
    Scan.header? stride layout.bytes = Scan.header? stride layout.head := by
  by_cases room : Header.length ≤ stride
  · have inHead : Header.length ≤ layout.head.length := by
      rw [layout.length_head]
      exact room
    have inDump : Header.length ≤ layout.bytes.length := by
      rw [layout.length_bytes]
      omega
    have same : layout.bytes.take Header.length = layout.head.take Header.length := by
      rw [Layout.bytes, List.append_assoc, List.take_append_of_le_length inHead]
    rw [Scan.header?, Scan.header?, if_pos ⟨room, inDump⟩, if_pos ⟨room, inHead⟩, same]
  · rw [Scan.header?, Scan.header?, if_neg fun both => room both.1, if_neg fun both => room both.1]

theorem Order.arrange_nil (order : Order) : order.arrange [] = [] := by
  cases order
  · rfl
  · exact List.mergeSort_nil

/-- A dump shorter than one stride has no slots and nothing left over. -/
theorem Journal.ofDump_of_short (settings : Settings) (data : Bytes)
    (short : data.length < settings.stride) :
    Journal.ofDump settings data =
      { header := Scan.header? settings.stride data, stride := settings.stride } := by
  have rest : data.length - Dump.start settings.stride = 0 := by
    rw [Dump.start_eq]
    omega
  have count : Dump.slotCount settings.stride data = 0 := by
    rw [Dump.slotCount, rest, Nat.zero_div]
  have windows : Dump.windows settings.stride data = [] := by
    rw [Dump.windows, count, Dump.windowsFrom]
  have leftover : Dump.leftover? settings.stride data = none := by
    rw [Dump.leftover?, rest, Nat.zero_mod, if_pos rfl]
  rw [Journal.ofDump, windows, count, leftover, List.filterMap_nil, Order.arrange_nil,
    List.countP_nil]

/-- A header block of five octets, a message, an empty slot with an id, and two octets more. -/
def Layout.sample : Layout 5 where
  head := [0xFF, 0xFF, 0xFF, 0xFF, 0xFF]
  blocks := [[0, 0, 1, 2, 0x41], [0, 0, 0, 9, 0]]
  tail := [7, 7]
  length_head := rfl
  length_block := by decide
  length_tail := by decide

/-- A lenient scan gives back the parts of every dump that has a header block, and finds nothing but
perhaps a header in every shorter one. -/
theorem scan_bytes {stride : Nat} (wide : 4 < stride) :
    (∀ layout : Layout stride,
      (∃ header, HeaderOf stride layout.head header ∧
        (scan { stride } layout.bytes).result = .ok {
          header
          records := layout.records
          stride
          slots := layout.blocks.length
          emptySlots := layout.emptyCount
          leftover := layout.leftover? }) ∧
      layout.blocks.length = layout.records.length + layout.emptyCount) ∧
    (∀ data : Bytes, data.length < stride →
      ∃ header, HeaderOf stride data header ∧
        (scan { stride } data).result = .ok { header, stride }) ∧
    (∀ data : Bytes, stride ≤ data.length → ∃ layout : Layout stride, layout.bytes = data) := by
  have lenient : ∀ data : Bytes,
      (scan { stride } data).result = .ok (.ofDump { stride } data) :=
    fun data => Scan.result_eq_ok { stride } data wide (by simp)
  refine ⟨?_, ?_, ?_⟩
  · intro layout
    refine ⟨⟨_, headerOf_header? stride layout.head, ?_⟩, layout.length_blocks⟩
    rw [lenient, Layout.ofDump_bytes { stride } layout, header?_layout]
    rfl
  · intro data short
    refine ⟨_, headerOf_header? stride data, ?_⟩
    rw [lenient, Journal.ofDump_of_short { stride } data short]
  · intro data enough
    exact ⟨_, Layout.bytes_ofBytes (Nat.zero_lt_of_lt wide) data enough⟩

theorem scan_bytes_sample : 4 < 5 ∧
    (scan { stride := 5 } [0xFF, 0xFF, 0xFF, 0xFF, 0xFF, 0, 0, 1, 2, 0x41, 0, 0, 0, 9, 0, 7, 7]).result =
      .ok {
        records := [{ offset := 5, id := 258, text := [0x41] }]
        stride := 5
        slots := 2
        emptySlots := 1
        leftover := some { offset := 15, length := 2 } } ∧
    (scan { stride := 5 } [1, 2, 3, 4]).result = .ok { stride := 5 } ∧
    ∃ layout : Layout 5, layout.bytes = [1, 2, 3, 4, 5, 6] := by
  have wide : 4 < 5 := by decide
  obtain ⟨parts, short, whole⟩ := scan_bytes wide
  refine ⟨wide, ?_, ?_, whole [1, 2, 3, 4, 5, 6] (by decide)⟩
  · obtain ⟨⟨header, found, result⟩, _⟩ := parts Layout.sample
    rw [found.eq_none (by decide)] at result
    exact result
  · obtain ⟨header, found, result⟩ := short [1, 2, 3, 4] (by decide)
    rw [found.eq_none (by decide)] at result
    exact result

end RamLog
