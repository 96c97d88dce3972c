import RamLog.Bytes

/-!
# Cutting a dump into slots

A dump is a header block of one stride, then slots of one stride each, then perhaps octets too
few for another slot. `windows` are the full slots with their offsets, `leftover?` the octets
after them.
-/
namespace RamLog

/-- A full slot of a dump and the offset at which it begins. -/
structure Window where
  offset : Nat
  bytes : Bytes
  deriving DecidableEq, Repr

structure Leftover where
  offset : Nat
  length : Nat
  deriving DecidableEq, Repr

namespace Dump

def headerSlots : Nat := 1

def start (stride : Nat) : Nat := headerSlots * stride

def slotCount (stride : Nat) (data : Bytes) : Nat := (data.length - start stride) / stride

/-- The next `count` slots, the first of them at `offset`. -/
def windowsFrom (stride offset : Nat) : (count : Nat) → Bytes → List Window
  | 0, _ => []
  | count + 1, data =>
    ⟨offset, data.take stride⟩ :: windowsFrom stride (offset + stride) count (data.drop stride)

def windows (stride : Nat) (data : Bytes) : List Window :=
  windowsFrom stride (start stride) (slotCount stride data) (data.drop (start stride))

/-- The octets after the last full slot, unless there are none. -/
def leftover? (stride : Nat) (data : Bytes) : Option Leftover :=
  let length := (data.length - start stride) % stride
  if length = 0 then none else some ⟨start stride + slotCount stride data * stride, length⟩

theorem start_eq (stride : Nat) : start stride = stride := Nat.one_mul stride

@[simp] theorem length_windowsFrom (stride offset count : Nat) (data : Bytes) :
    (windowsFrom stride offset count data).length = count := by
  induction count generalizing offset data with
  | zero => rfl
  | succ count ih => simp [windowsFrom, ih]

@[simp] theorem length_windows (stride : Nat) (data : Bytes) :
    (windows stride data).length = slotCount stride data := by
  simp [windows]

/-- Slots begin one stride apart. -/
theorem map_offset_windowsFrom (stride offset count : Nat) (data : Bytes) :
    (windowsFrom stride offset count data).map (·.offset) =
      (List.range count).map (offset + · * stride) := by
  induction count generalizing offset data with
  | zero => rfl
  | succ count ih =>
    rw [windowsFrom, List.map_cons, ih, List.range_succ_eq_map, List.map_cons, List.map_map,
      Nat.zero_mul]
    congr 1
    apply List.map_congr_left
    intro i _
    simp only [Function.comp_apply, Nat.succ_mul]
    omega

/-- A window is as long as the stride while the octets last. -/
theorem length_of_mem_windowsFrom {stride offset count : Nat} {data : Bytes} {w : Window}
    (enough : count * stride ≤ data.length) (h : w ∈ windowsFrom stride offset count data) :
    w.bytes.length = stride := by
  induction count generalizing offset data with
  | zero => simp [windowsFrom] at h
  | succ count ih =>
    rw [Nat.succ_mul] at enough
    rcases List.mem_cons.mp h with rfl | h
    · simp only [List.length_take]
      omega
    · exact ih (by simp only [List.length_drop]; omega) h

/-- Every window of a dump is one stride long. -/
theorem length_of_mem_windows {stride : Nat} {data : Bytes} {w : Window}
    (h : w ∈ windows stride data) : w.bytes.length = stride := by
  refine length_of_mem_windowsFrom ?_ h
  rw [List.length_drop]
  exact Nat.div_mul_le_self _ _

end Dump

end RamLog
