import RamLog.Proofs.Dump.Slots
import RamLog.Proofs.Listing.Faithful
import RamLog.Proofs.Scan.Order

/-!
# The numbers of slots

A header numbers slots by absolute addresses, a scan by offsets into the dump. Both count strides from
the header block on: an address has the number of the slot that begins so many strides above the base
(`Header.slotAt?_eq_some_iff`), and so has a record (`Dump.exists_number`). The numbers agree for
every record whose address is a word, and the detailed listing shows the number of the slot under the
cursor when there is one (`slots_numbered`).
-/
namespace RamLog

open Text

namespace Header

variable (h : Header)

/-- The number of a slot is the count of strides between the base and the address, which does not
wrap. -/
theorem slotAt?_eq_some_iff (address : UInt32) (stride number : Nat) :
    h.slotAt? address stride = some number ↔
      0 < stride ∧ address.toNat = h.base.toNat + number * stride := by
  simp only [slotAt?, Option.ite_none_right_eq_some, Option.some.injEq, UInt32.le_iff_toNat_le]
  constructor
  · rintro ⟨⟨above, some_stride, whole⟩, rfl⟩
    have distance := Nat.div_mul_cancel (Nat.dvd_of_mod_eq_zero whole)
    exact ⟨Nat.pos_of_ne_zero some_stride, by omega⟩
  · rintro ⟨positive, there⟩
    have distance : address.toNat - h.base.toNat = number * stride := by omega
    rw [distance]
    exact ⟨⟨by omega, Nat.ne_of_gt positive, Nat.mul_mod_left number stride⟩,
      Nat.mul_div_cancel number positive⟩

/-- An address has no number when it lies below the base or inside a slot, or slots have no length. -/
theorem slotAt?_eq_none_iff (address : UInt32) (stride : Nat) :
    h.slotAt? address stride = none ↔
      address < h.base ∨ stride = 0 ∨ (address.toNat - h.base.toNat) % stride ≠ 0 := by
  simp only [slotAt?, ite_eq_right_iff, reduceCtorEq, imp_false, not_and_or, not_not,
    UInt32.not_le, ne_eq]

/-- Addresses in different places have different numbers. -/
theorem slotAt?_inj {a b : UInt32} {stride number : Nat} (first : h.slotAt? a stride = some number)
    (second : h.slotAt? b stride = some number) : a = b := by
  obtain ⟨_, there⟩ := (h.slotAt?_eq_some_iff a stride number).mp first
  obtain ⟨_, same⟩ := (h.slotAt?_eq_some_iff b stride number).mp second
  exact UInt32.toNat.inj (there.trans same.symm)

end Header

namespace Dump

/-- A record lies at the beginning of a full slot behind the header block. -/
theorem exists_number {stride : Nat} {data : Bytes} {r : Record}
    (member : r ∈ (windows stride data).filterMap Window.record?) :
    ∃ number, 1 ≤ number ∧ number ≤ slotCount stride data ∧ r.offset = number * stride := by
  obtain ⟨w, window, found⟩ := List.mem_filterMap.mp member
  rw [windows_eq] at window
  obtain ⟨i, counted, rfl⟩ := List.mem_map.mp window
  exact ⟨i + 1, Nat.succ_pos i, List.mem_range.mp counted, Window.offset_of_mem_record? found⟩

/-- No two records have the same number. -/
theorem nodup_numbers {stride : Nat} (positive : 0 < stride) (data : Bytes) :
    (((windows stride data).filterMap Window.record?).map (·.offset / stride)).Nodup := by
  rw [List.Nodup, List.pairwise_map]
  apply (pairwise_offset_records positive data).imp_of_mem
  intro r q memberR memberQ before same
  obtain ⟨m, _, _, offsetR⟩ := exists_number memberR
  obtain ⟨n, _, _, offsetQ⟩ := exists_number memberQ
  rw [offsetR, offsetQ, Nat.mul_div_cancel _ positive, Nat.mul_div_cancel _ positive] at same
  rw [offsetR, offsetQ, same] at before
  exact Nat.lt_irrefl _ before

end Dump

namespace Listing

theorem place_eq_slot_iff (slot : Option Nat) (number : Nat) :
    place slot = "(slot ".toList ++ Decimal.digits number ++ ")".toList ↔ slot = some number := by
  constructor
  · intro same
    cases slot with
    | none =>
      have second : some 'n' = some 's' := congrArg (·[1]?) same
      exact absurd second (by decide)
    | some k =>
      have digits := List.append_cancel_left (List.append_cancel_right same)
      rw [Decimal.digits_inj digits]
  · rintro rfl
    rfl

theorem place_eq_none_iff (slot : Option Nat) : place slot = "(not a slot)".toList ↔ slot = none := by
  constructor
  · intro same
    cases slot with
    | none => rfl
    | some k =>
      have second : some 's' = some 'n' := congrArg (·[1]?) same
      exact absurd second (by decide)
  · rintro rfl
    rfl

end Listing

/-- The fifth line of the listing is about the cursor, if the header is shown. -/
theorem Journal.line_cursor {journal : Journal} {h : Header} (header : journal.header = some h)
    (words : ¬ h.isBlank = true) :
    (journal.details.flatten.splitOn 0x0A)[4]? = some (Utf8.encode ("Current: ".toList ++
      Listing.address h.cursor ++ ' ' :: Listing.place (h.nextSlot? journal.stride))) := by
  rw [splitOn_details, detailLines, header, Listing.headerLines_of_words words]
  rfl

/-- A header and a scan number slots alike. An address has a number when it lies so many strides above
the base, in numbers that do not wrap, and different addresses have different numbers. Behind that
header, a scan finds each record at the beginning of a slot of its own, between the first and the last,
and if the record has an address, that is the number that the header gives it. The listing shows the
number that the cursor has, or that it has none. -/
theorem slots_numbered (h : Header) (stride : Nat) :
    (∀ address number, h.slotAt? address stride = some number ↔
      0 < stride ∧ address.toNat = h.base.toNat + number * stride) ∧
    (∀ address, h.slotAt? address stride = none ↔
      address < h.base ∨ stride = 0 ∨ (address.toNat - h.base.toNat) % stride ≠ 0) ∧
    (∀ a b number, h.slotAt? a stride = some number → h.slotAt? b stride = some number → a = b) ∧
    (∀ strict order data journal,
      (scan { stride, strict, order } data).result = .ok journal → journal.header = some h →
        (journal.records.map (·.offset / stride)).Nodup ∧
        ∀ r ∈ journal.records, 1 ≤ r.offset / stride ∧ r.offset / stride ≤ journal.slots ∧
          ∀ address : UInt32, address.toNat = h.base.toNat + r.offset →
            h.slotAt? address stride = some (r.offset / stride)) ∧
    (∀ journal : Journal, journal.header = some h → journal.stride = stride → 0 < stride →
      ¬ h.isBlank = true →
        ∃ place : List Char,
          (journal.details.flatten.splitOn 0x0A)[4]? = some (Utf8.encode
            ("Current: ".toList ++ Listing.address h.cursor ++ ' ' :: place)) ∧
          (∀ number, place = "(slot ".toList ++ Decimal.digits number ++ ")".toList ↔
            h.cursor.toNat = h.base.toNat + number * stride) ∧
          (place = "(not a slot)".toList ↔
            ∀ number, h.cursor.toNat ≠ h.base.toNat + number * stride)) := by
  refine ⟨fun address number => h.slotAt?_eq_some_iff address stride number,
    fun address => h.slotAt?_eq_none_iff address stride,
    fun a b number => h.slotAt?_inj, ?_, ?_⟩
  · intro strict order data journal scanned _
    obtain ⟨wide, rfl⟩ := Scan.eq_ofDump_of_result scanned
    have positive : 0 < stride := Nat.zero_lt_of_lt wide
    have numbers := (Scan.perm_arrange order
      ((Dump.windows stride data).filterMap Window.record?)).map (·.offset / stride)
    refine ⟨numbers.nodup_iff.mpr (Dump.nodup_numbers positive data), ?_⟩
    intro r member
    obtain ⟨number, first, last, offset⟩ := Dump.exists_number (Scan.mem_arrange.mp member)
    rw [offset, Nat.mul_div_cancel _ positive]
    refine ⟨first, last, ?_⟩
    intro address there
    exact (h.slotAt?_eq_some_iff address stride number).mpr ⟨positive, there⟩
  · rintro journal header rfl positive words
    have shown : ∀ number, h.nextSlot? journal.stride = some number ↔
        h.cursor.toNat = h.base.toNat + number * journal.stride := by
      intro number
      rw [Header.nextSlot?, h.slotAt?_eq_some_iff]
      exact and_iff_right positive
    refine ⟨_, Journal.line_cursor header words, ?_, ?_⟩
    · intro number
      rw [Listing.place_eq_slot_iff, shown]
    · rw [Listing.place_eq_none_iff, Option.eq_none_iff_forall_ne_some]
      simp only [ne_eq, shown]

/-- A header thirty octets below the end of the addresses, with the cursor at its first slot. -/
def Header.nearEnd : Header := ⟨0xFFFFFFE2, 0, 0, 0xFFFFFFF6, 2⟩

/-- Two messages of twenty octets behind it; the second has no address. -/
def Dump.nearEnd : Bytes := Header.nearEnd.encode ++
  ([0, 0, 0, 1, 0x41] ++ List.replicate 15 0) ++ ([0, 0, 0, 2, 0x42] ++ List.replicate 15 0)

def Journal.nearEnd : Journal where
  header := some Header.nearEnd
  records := [⟨20, 1, 0x41 :: List.replicate 15 0⟩, ⟨40, 2, 0x42 :: List.replicate 15 0⟩]
  stride := 20
  slots := 2

theorem slots_numbered_near_end :
    (scan { stride := 20 } Dump.nearEnd).result = .ok Journal.nearEnd ∧
      Journal.nearEnd.header = some Header.nearEnd ∧ Journal.nearEnd.stride = 20 ∧ 0 < 20 ∧
      ¬ Header.nearEnd.isBlank = true ∧
      { offset := 20, id := 1, text := 0x41 :: List.replicate 15 0 } ∈ Journal.nearEnd.records ∧
      (0xFFFFFFF6 : UInt32).toNat = Header.nearEnd.base.toNat + 20 ∧
      Header.nearEnd.slotAt? 0xFFFFFFF6 20 = some 1 ∧
      (Journal.nearEnd.details.flatten.splitOn 0x0A)[4]? =
        some (Utf8.encode "Current: 0xFFFFFFF6 (slot 1)".toList) := by
  have scanned : (scan { stride := 20 } Dump.nearEnd).result = .ok Journal.nearEnd := rfl
  have words : ¬ Header.nearEnd.isBlank = true := by decide
  have member : { offset := 20, id := 1, text := 0x41 :: List.replicate 15 0 } ∈
      Journal.nearEnd.records := by simp [Journal.nearEnd]
  obtain ⟨_, _, _, records, listing⟩ := slots_numbered Header.nearEnd 20
  obtain ⟨_, numbered⟩ := records false .file Dump.nearEnd Journal.nearEnd scanned rfl
  obtain ⟨_, _, agreed⟩ := numbered _ member
  obtain ⟨place, line, slot, _⟩ := listing Journal.nearEnd rfl rfl (by decide) words
  rw [(slot 1).mpr rfl] at line
  exact ⟨scanned, rfl, rfl, by decide, words, member, rfl, agreed 0xFFFFFFF6 rfl, line⟩

end RamLog
