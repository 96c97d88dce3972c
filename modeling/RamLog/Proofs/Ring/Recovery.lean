import RamLog.Proofs.Bytes
import RamLog.Proofs.Scan.Format
import RamLog.Proofs.Scan.Order
import RamLog.Ring

/-!
# Reading a ring

A logger writes message `k` of a run over slot `(start + k) % slots`. Whatever the number of slots,
the first slot and the length of the run, the slots hold the last messages at their places and are
blank elsewhere (`holds_write`), and a scan in the order of ids gives these messages in the order in
which they were logged (`scan_image`).
-/
namespace RamLog

/-- A message that fills a slot and does not look like an empty one. -/
structure Message.Fits (stride : Nat) (m : Message) : Prop where
  length_text : m.text.length = stride - 4
  head_text : m.text.head? ≠ some 0

namespace Message

theorem length_id (m : Message) : (Bytes.big Record.idLength m.id.toNat).length = 4 :=
  Bytes.length_big _ _

theorem drop_encode (m : Message) : m.encode.drop 4 = m.text := List.drop_left' m.length_id

theorem getElem?_encode (m : Message) : m.encode[4]? = m.text.head? := by
  rw [← List.head?_drop, drop_encode]

/-- The id in a block is the id that was written. -/
theorem blockId_encode (m : Message) : Layout.blockId m.encode = m.id := by
  have id : m.encode.take 4 = Bytes.big Record.idLength m.id.toNat := List.take_left' m.length_id
  have small : m.id.toNat < 256 ^ Record.idLength := m.id.toNat_lt
  rw [Layout.blockId, id, ← Bytes.bigValue_eq_foldl, Bytes.bigValue_big, Nat.mod_eq_of_lt small,
    UInt32.ofNat_toNat]

theorem length_encode {stride : Nat} {m : Message} (wide : 4 < stride) (fits : m.Fits stride) :
    m.encode.length = stride := by
  rw [encode, List.length_append, m.length_id, fits.length_text]
  omega

/-- A message that was written over a slot is read back. -/
theorem record?_encode {stride : Nat} {m : Message} (fits : m.Fits stride) (offset : Nat) :
    Window.record? ⟨offset, m.encode⟩ = some { offset, id := m.id, text := m.text } := by
  have full : ¬ m.encode[4]? = some 0 := by
    rw [getElem?_encode]
    exact fits.head_text
  rw [record?_block, if_neg full, blockId_encode, drop_encode]

end Message

namespace Ring

variable {stride start : Nat}

/-- The slots hold the last messages of a run, one over the other, and no slot holds anything else. -/
structure Holds (stride : Nat) (slots : List Bytes) (start : Nat) (written : List Message) :
    Prop where
  kept : ∀ k m, written[k]? = some m → written.length ≤ k + slots.length →
    slots[(start + k) % slots.length]? = some m.encode
  blank : ∀ i < slots.length,
    (∀ k < written.length, written.length ≤ k + slots.length → (start + k) % slots.length ≠ i) →
      slots[i]? = some (List.replicate stride 0)

/-- Two positions less than one round apart are different slots. -/
theorem mod_ne_mod {a b slots : Nat} (less : a < b) (near : b < a + slots) :
    b % slots ≠ a % slots := by
  intro same
  have whole : (b - a) % slots = 0 := Nat.sub_mod_eq_zero_of_mod_eq same
  rw [Nat.mod_eq_of_lt (by omega)] at whole
  omega

theorem holds_blank (stride slots start : Nat) : Holds stride (blank stride slots) start [] where
  kept := by simp
  blank := by
    intro i inside _
    rw [Ring.blank, List.length_replicate] at inside
    rw [Ring.blank, List.getElem?_replicate, if_pos inside]

/-- One message more: it takes the slot of the oldest one kept, if the slots are all taken. -/
theorem Holds.set {slots : List Bytes} {written : List Message}
    (holds : Holds stride slots start written) (some_slots : 0 < slots.length) (m : Message) :
    Holds stride (slots.set ((start + written.length) % slots.length) m.encode) start
      (written ++ [m]) where
  kept := by
    intro k q found near
    simp only [List.length_append, List.length_singleton, List.length_set] at near ⊢
    rcases Nat.lt_or_ge k written.length with old | new
    · rw [List.getElem?_append_left old] at found
      have other : (start + written.length) % slots.length ≠ (start + k) % slots.length :=
        mod_ne_mod (by omega) (by omega)
      rw [List.getElem?_set_ne other]
      exact holds.kept k q found (by omega)
    · rw [List.getElem?_append_right new] at found
      obtain ⟨last, rfl⟩ : k - written.length = 0 ∧ m = q := by
        cases distance : k - written.length with
        | zero => simpa [distance] using found
        | succ d => simp [distance] at found
      have here : k = written.length := by omega
      rw [here, List.getElem?_set_self (Nat.mod_lt _ some_slots)]
  blank := by
    intro i inside free
    simp only [List.length_append, List.length_singleton, List.length_set] at inside free ⊢
    have other : (start + written.length) % slots.length ≠ i :=
      free written.length (by omega) (by omega)
    rw [List.getElem?_set_ne other]
    refine holds.blank i inside fun k old near => ?_
    -- The message that the new one pushes out lies one round before it, on the same slot.
    rcases Nat.lt_or_ge written.length (k + slots.length) with stays | leaves
    · exact free k (by omega) (by omega)
    · have round : start + written.length = start + k + slots.length := by omega
      rw [round, Nat.add_mod_right] at other
      exact other

/-- A run: the slots hold its last messages. -/
theorem Holds.write {slots : List Bytes} {written : List Message}
    (holds : Holds stride slots start written) (some_slots : 0 < slots.length)
    (messages : List Message) :
    Holds stride (write slots (start + written.length) messages) start (written ++ messages) := by
  induction messages generalizing slots written with
  | nil => simpa [Ring.write] using holds
  | cons m rest ih =>
    have next := ih (holds.set some_slots m) (by simpa using some_slots)
    simpa [Ring.write, Nat.add_assoc] using next

theorem holds_write {slots : Nat} (some_slots : 0 < slots) (written : List Message) :
    Holds stride (write (blank stride slots) start written) start written := by
  have ready : 0 < (blank stride slots).length := by
    rw [blank, List.length_replicate]
    exact some_slots
  exact (holds_blank stride slots start).write ready written

/-- Slots keep their length under a run of messages that fit. -/
theorem length_of_mem_write {slots : List Bytes} (next : Nat) {messages : List Message}
    (wide : 4 < stride) (same : ∀ slot ∈ slots, slot.length = stride)
    (fits : ∀ m ∈ messages, m.Fits stride) :
    ∀ slot ∈ write slots next messages, slot.length = stride := by
  induction messages generalizing slots next with
  | nil => exact same
  | cons m rest ih =>
    refine ih (next + 1) ?_ fun q member => fits q (by simp [member])
    intro slot member
    rcases List.mem_or_eq_of_mem_set member with old | new
    · exact same slot old
    · rw [new]
      exact Message.length_encode wide (fits m (by simp))

/-- The last messages of a run as records, in the order in which they were logged, each at the
offset of the slot it was written to. -/
def survivors (stride slots start : Nat) (written : List Message) : List Record :=
  ((written.zipIdx start).drop (written.length - slots)).map fun (m, position) =>
    { offset := (position % slots + 1) * stride, id := m.id, text := m.text }

theorem length_survivors (slots : Nat) (written : List Message) :
    (survivors stride slots start written).length = min slots written.length := by
  rw [survivors, List.length_map, List.length_drop, List.length_zipIdx]
  omega

theorem mem_survivors {slots : Nat} {written : List Message} {r : Record} :
    r ∈ survivors stride slots start written ↔
      ∃ k m, written[k]? = some m ∧ written.length ≤ k + slots ∧
        r = { offset := ((start + k) % slots + 1) * stride, id := m.id, text := m.text } := by
  rw [survivors, List.mem_map]
  constructor
  · rintro ⟨⟨m, position⟩, member, rfl⟩
    obtain ⟨d, found⟩ := List.mem_iff_getElem?.mp member
    rw [List.getElem?_drop, List.getElem?_zipIdx, Option.map_eq_some_iff] at found
    obtain ⟨q, found, same⟩ := found
    obtain ⟨rfl, rfl⟩ := Prod.mk.inj same
    exact ⟨written.length - slots + d, q, found, by omega, rfl⟩
  · rintro ⟨k, m, found, near, rfl⟩
    refine ⟨(m, start + k), List.mem_iff_getElem?.mpr ⟨k - (written.length - slots), ?_⟩, rfl⟩
    have index : written.length - slots + (k - (written.length - slots)) = k := by omega
    rw [List.getElem?_drop, List.getElem?_zipIdx, index, found]
    rfl

theorem ascending_survivors {slots : Nat} {written : List Message}
    (ascending : written.Pairwise (·.id < ·.id)) :
    (survivors stride slots start written).Pairwise (·.id < ·.id) := by
  have messages : ((written.zipIdx start).map (·.1)).Pairwise (·.id < ·.id) := by
    rw [List.zipIdx_map_fst]
    exact ascending
  rw [survivors, List.pairwise_map]
  exact (List.pairwise_map.mp messages).drop

theorem mem_records {layout : Layout stride} {r : Record} :
    r ∈ layout.records ↔ ∃ i block, layout.blocks[i]? = some block ∧
      Window.record? ⟨(i + 1) * stride, block⟩ = some r := by
  rw [← Layout.filterMap_record?_windows, Layout.windows, List.filterMap_map, List.mem_filterMap]
  constructor
  · rintro ⟨⟨block, number⟩, member, found⟩
    obtain ⟨after, at_index⟩ := List.mk_mem_zipIdx_iff_le_and_getElem?_sub.mp member
    refine ⟨number - 1, block, at_index, ?_⟩
    rw [Nat.sub_add_cancel after]
    exact found
  · rintro ⟨i, block, at_index, found⟩
    refine ⟨(block, i + 1), List.mk_mem_zipIdx_iff_le_and_getElem?_sub.mpr ⟨by omega, ?_⟩, found⟩
    rw [Nat.add_sub_cancel]
    exact at_index

theorem record?_blank (wide : 4 < stride) (offset : Nat) :
    Window.record? ⟨offset, List.replicate stride 0⟩ = none := by
  rw [record?_block, List.getElem?_replicate, if_pos wide, if_pos rfl]

/-- The records of a ring are the last messages, in whatever order they lie. -/
theorem mem_records_iff_mem_survivors {layout : Layout stride} {written : List Message}
    (wide : 4 < stride) (holds : Holds stride layout.blocks start written)
    (fits : ∀ m ∈ written, m.Fits stride) (r : Record) :
    r ∈ layout.records ↔ r ∈ survivors stride layout.blocks.length start written := by
  rw [mem_records, mem_survivors]
  constructor
  · rintro ⟨i, block, at_index, found⟩
    by_cases taken : ∃ k < written.length, written.length ≤ k + layout.blocks.length ∧
        (start + k) % layout.blocks.length = i
    · obtain ⟨k, old, near, rfl⟩ := taken
      have at_message := holds.kept k written[k] (List.getElem?_eq_getElem old) near
      rw [at_message, Option.some.injEq] at at_index
      rw [← at_index, Message.record?_encode (fits _ (List.getElem_mem old))] at found
      exact ⟨k, written[k], List.getElem?_eq_getElem old, near, (Option.some.inj found).symm⟩
    · have free : ∀ k < written.length, written.length ≤ k + layout.blocks.length →
          (start + k) % layout.blocks.length ≠ i :=
        fun k old near same => taken ⟨k, old, near, same⟩
      have inside : i < layout.blocks.length := (List.getElem?_eq_some_iff.mp at_index).1
      rw [holds.blank i inside free, Option.some.injEq] at at_index
      rw [← at_index, record?_blank wide] at found
      contradiction
  · rintro ⟨k, m, found, near, rfl⟩
    exact ⟨_, m.encode, holds.kept k m found near,
      Message.record?_encode (fits m (List.mem_of_getElem? found)) _⟩

def layout (headerBlock : Bytes) (slots : List Bytes) (wide : 4 < stride)
    (whole : headerBlock.length = stride) (same : ∀ slot ∈ slots, slot.length = stride) :
    Layout stride where
  head := headerBlock
  blocks := slots
  tail := []
  length_head := whole
  length_block := same
  length_tail := Nat.zero_lt_of_lt wide

/-- Arranging the records of a ring by their ids gives the last messages in logging order. -/
theorem arrange_records {layout : Layout stride} {written : List Message} (wide : 4 < stride)
    (holds : Holds stride layout.blocks start written)
    (fits : ∀ m ∈ written, m.Fits stride) (ascending : written.Pairwise (·.id < ·.id)) :
    Order.sequence.arrange layout.records =
      survivors stride layout.blocks.length start written := by
  have inOrder : (survivors stride layout.blocks.length start written).Pairwise (·.id < ·.id) :=
    ascending_survivors ascending
  have distinct : layout.records.Nodup := by
    rw [← layout.filterMap_record?_windows, ← layout.windows_bytes]
    exact Dump.nodup_records (Nat.zero_lt_of_lt wide) _
  have lastDistinct : (survivors stride layout.blocks.length start written).Nodup := by
    refine inOrder.imp ?_
    rintro r _ less rfl
    exact UInt32.lt_irrefl _ less
  refine Order.arrange_sequence_eq ?_ inOrder
  rw [List.perm_ext_iff_of_nodup distinct lastDistinct]
  exact mem_records_iff_mem_survivors wide holds fits

end Ring

/-- At every point of a run, a scan by id of the image of a ring gives the last messages in the
order in which they were logged, and counts the slots that were never written. -/
theorem scan_image {stride slots start : Nat} (wide : 4 < stride) (some_slots : 0 < slots)
    (headerBlock : Bytes) (whole : headerBlock.length = stride) (messages : List Message)
    (fits : ∀ m ∈ messages, m.Fits stride) (ascending : messages.Pairwise (·.id < ·.id))
    (strict : Bool) (written : List Message) (sofar : written <+: messages) :
    ∃ header, HeaderOf stride headerBlock header ∧
      (scan { stride, strict, order := .sequence }
        (Ring.image headerBlock (Ring.write (Ring.blank stride slots) start written))).result =
          .ok {
            header
            records := Ring.survivors stride slots start written
            stride
            slots
            emptySlots := slots - min slots written.length
            leftover := none } := by
  have fitsWritten : ∀ m ∈ written, m.Fits stride := fun m member => fits m (sofar.subset member)
  have ascendingWritten := ascending.sublist sofar.sublist
  have blankLength : ∀ slot ∈ Ring.blank stride slots, slot.length = stride := by
    intro slot member
    rw [List.eq_of_mem_replicate member, List.length_replicate]
  let ring := Ring.layout headerBlock (Ring.write (Ring.blank stride slots) start written) wide
    whole (Ring.length_of_mem_write start wide blankLength fitsWritten)
  have count : ring.blocks.length = slots := by
    show (Ring.write (Ring.blank stride slots) start written).length = slots
    rw [Ring.length_write, Ring.blank, List.length_replicate]
  have arranged : Order.sequence.arrange ring.records =
      Ring.survivors stride slots start written := by
    rw [Ring.arrange_records wide (Ring.holds_write some_slots written) fitsWritten
      ascendingWritten, count]
  have found : ring.records.length = min slots written.length := by
    have arrangedLength : (Order.sequence.arrange ring.records).length = ring.records.length :=
      List.length_mergeSort _
    rw [← arrangedLength, arranged, Ring.length_survivors]
  have empty : ring.emptyCount = slots - min slots written.length := by
    have account := ring.length_blocks
    omega
  have noLeftover : ring.leftover? = none := if_pos rfl
  have image : Ring.image headerBlock (Ring.write (Ring.blank stride slots) start written) =
      ring.bytes := (List.append_nil _).symm
  let settings : Settings := { stride, strict, order := .sequence }
  have scanned := Scan.result_eq_ok settings ring.bytes wide fun _ =>
    (Layout.leftover?_bytes ring).trans noLeftover
  refine ⟨_, headerOf_header? stride headerBlock, ?_⟩
  rw [image, scanned, Layout.ofDump_bytes settings ring, header?_layout, arranged, count, empty,
    noLeftover]
  rfl

theorem scan_image_wrapped :
    let run : List Message := [⟨7, [0x61]⟩, ⟨8, [0x62]⟩, ⟨9, [0x63]⟩]
    (∀ m ∈ run, m.Fits 5) ∧ run.Pairwise (·.id < ·.id) ∧
      (scan { stride := 5, order := .sequence }
        (Ring.image [0, 0, 0, 0, 0] (Ring.write (Ring.blank 5 2) 1 run))).result = .ok {
          records := [
            { offset := 5, id := 8, text := [0x62] },
            { offset := 10, id := 9, text := [0x63] }]
          stride := 5
          slots := 2 } := by
  intro run
  have fits : ∀ m ∈ run, m.Fits 5 := by
    intro m member
    have short : m.text.length = 5 - 4 ∧ m.text.head? ≠ some 0 := by
      revert m
      decide
    exact ⟨short.1, short.2⟩
  have ascending : run.Pairwise (·.id < ·.id) := by decide
  refine ⟨fits, ascending, ?_⟩
  obtain ⟨header, found, result⟩ := @scan_image 5 2 1 (by decide) (by decide) [0, 0, 0, 0, 0] rfl
    run fits ascending false run (List.prefix_refl run)
  rw [found.eq_none (by decide)] at result
  exact result

end RamLog
