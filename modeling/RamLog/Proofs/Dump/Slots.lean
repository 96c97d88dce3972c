import RamLog.Proofs.Scan.Account

/-!
# Slots by number

The slots of a dump are numbered from the header block, which is number zero. The windows of a dump
are its slots from number one to the last that the dump holds whole (`windows_eq`,
`mem_windows_iff`), and whether one is empty stands in the dump at a fixed distance behind its
offset (`isEmpty_slot`).
-/
namespace RamLog.Dump

/-- The octets of a slot by its number; the header block is number zero. -/
def slot (stride number : Nat) (data : Bytes) : Bytes := (data.drop (number * stride)).take stride

theorem slot_drop (stride number : Nat) (data : Bytes) :
    slot stride number (data.drop stride) = slot stride (number + 1) data := by
  rw [slot, slot, List.drop_drop, Nat.succ_mul, Nat.add_comm]

theorem windowsFrom_eq (stride offset count : Nat) (data : Bytes) :
    windowsFrom stride offset count data =
      (List.range count).map fun i => ⟨offset + i * stride, slot stride i data⟩ := by
  induction count generalizing offset data with
  | zero => rfl
  | succ count ih =>
    have first : slot stride 0 data = data.take stride := by simp [slot]
    have offsets : ∀ i, offset + stride + i * stride = offset + (i + 1) * stride := by
      intro i
      rw [Nat.succ_mul]
      omega
    rw [windowsFrom, ih, List.range_succ_eq_map, List.map_cons, List.map_map, first, Nat.zero_mul,
      Nat.add_zero]
    simp only [slot_drop, offsets, Function.comp_def, Nat.succ_eq_add_one]

/-- The full slots of a dump by their numbers. -/
theorem windows_eq (stride : Nat) (data : Bytes) :
    windows stride data = (List.range (slotCount stride data)).map fun i =>
      ⟨(i + 1) * stride, slot stride (i + 1) data⟩ := by
  have offsets : ∀ i, stride + i * stride = (i + 1) * stride := by
    intro i
    rw [Nat.succ_mul, Nat.add_comm]
  rw [windows, windowsFrom_eq, start_eq]
  simp only [slot_drop, offsets]

section Number

variable {stride : Nat} (positive : 0 < stride) (data : Bytes)

include positive

/-- A window is numbered when the slot of that number, one past it from the header block on, ends
inside the dump. -/
theorem lt_slotCount_iff (i : Nat) : i < slotCount stride data ↔ (i + 2) * stride ≤ data.length := by
  have counted : i < slotCount stride data ↔ (i + 1) * stride ≤ data.length - stride := by
    rw [slotCount, start_eq]
    exact Nat.le_div_iff_mul_le positive
  have further : stride ≤ (i + 1) * stride := Nat.le_mul_of_pos_left stride (Nat.succ_pos i)
  rw [counted, Nat.succ_mul (i + 1)]
  omega

/-- The windows are the slots behind the header block that end inside the dump. -/
theorem mem_windows_iff (w : Window) :
    w ∈ windows stride data ↔ ∃ number, 0 < number ∧ (number + 1) * stride ≤ data.length ∧
      w = ⟨number * stride, slot stride number data⟩ := by
  rw [windows_eq, List.mem_map]
  constructor
  · rintro ⟨i, member, rfl⟩
    have inside := (lt_slotCount_iff positive data i).mp (List.mem_range.mp member)
    exact ⟨i + 1, Nat.succ_pos i, inside, rfl⟩
  · rintro ⟨number, some_number, inside, rfl⟩
    obtain ⟨i, rfl⟩ := Nat.exists_eq_succ_of_ne_zero (Nat.ne_of_gt some_number)
    exact ⟨i, List.mem_range.mpr ((lt_slotCount_iff positive data i).mpr inside), rfl⟩

end Number

/-- The windows from some number on begin with the slot of the next number. -/
theorem drop_windows {stride i : Nat} {data : Bytes} (inside : i < slotCount stride data) :
    (windows stride data).drop i =
      ⟨(i + 1) * stride, slot stride (i + 1) data⟩ :: (windows stride data).drop (i + 1) := by
  have counted : i < (windows stride data).length := by
    rw [length_windows]
    exact inside
  rw [List.drop_eq_getElem_cons counted]
  simp only [windows_eq, List.getElem_map, List.getElem_range]

/-- Whether a slot is empty is said by the octet behind its id. -/
theorem isEmpty_slot {stride : Nat} (wide : Record.idLength < stride) (offset number : Nat)
    (data : Bytes) :
    Window.isEmpty ⟨offset, slot stride number data⟩ = true ↔
      data[number * stride + 4]? = some 0 := by
  rw [Window.isEmpty, decide_eq_true_eq, slot, List.getElem?_take_of_lt wide, List.getElem?_drop]
  rfl

end RamLog.Dump
