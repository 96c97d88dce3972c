import RamLog.Dump

/-!
# Dumps taken apart

A `Layout` is a dump written as a header block, blocks of one stride, and octets too few for
another block. `windows_bytes` and `leftover?_bytes` say that cutting such a dump finds exactly
these parts, whatever the octets are; `bytes_ofBytes` that every dump of at least one stride has a
layout, so nothing is lost by looking at layouts only.
-/
namespace RamLog

/-- The parts of a dump. -/
structure Layout (stride : Nat) where
  head : Bytes
  blocks : List Bytes
  tail : Bytes
  length_head : head.length = stride
  length_block : ∀ block ∈ blocks, block.length = stride
  length_tail : tail.length < stride

namespace Layout

variable {stride : Nat}

def bytes (layout : Layout stride) : Bytes := layout.head ++ layout.blocks.flatten ++ layout.tail

/-- The blocks with the offsets at which they begin; the header block is number zero. -/
def windows (layout : Layout stride) : List Window :=
  (layout.blocks.zipIdx 1).map fun b => ⟨b.2 * stride, b.1⟩

theorem length_flatten (blocks : List Bytes) (same : ∀ block ∈ blocks, block.length = stride) :
    blocks.flatten.length = blocks.length * stride := by
  induction blocks with
  | nil => simp
  | cons block rest ih =>
    have blockLength := same block (by simp)
    have restLength := ih fun b member => same b (by simp [member])
    rw [List.flatten_cons, List.length_append, blockLength, restLength, List.length_cons,
      Nat.succ_mul, Nat.add_comm]

theorem drop_start (layout : Layout stride) :
    layout.bytes.drop (Dump.start stride) = layout.blocks.flatten ++ layout.tail := by
  rw [Dump.start_eq, bytes, List.append_assoc]
  exact List.drop_left' layout.length_head

theorem length_bytes (layout : Layout stride) :
    layout.bytes.length = stride + layout.blocks.length * stride + layout.tail.length := by
  rw [bytes, List.length_append, List.length_append, layout.length_head,
    length_flatten _ layout.length_block]

/-- The octets behind the header block, in strides and what is left. -/
theorem length_sub_start (layout : Layout stride) :
    layout.bytes.length - Dump.start stride =
      layout.blocks.length * stride + layout.tail.length := by
  rw [length_bytes, Dump.start_eq]
  omega

@[simp] theorem slotCount_bytes (layout : Layout stride) :
    Dump.slotCount stride layout.bytes = layout.blocks.length := by
  have positive : 0 < stride := Nat.zero_lt_of_lt layout.length_tail
  rw [Dump.slotCount, length_sub_start, Nat.add_comm, Nat.add_mul_div_right _ _ positive,
    Nat.div_eq_of_lt layout.length_tail, Nat.zero_add]

/-- Cutting as many windows as there are blocks gives the blocks, whatever follows them. -/
theorem windowsFrom_flatten (blocks : List Bytes) (tail : Bytes) (number : Nat)
    (same : ∀ block ∈ blocks, block.length = stride) :
    Dump.windowsFrom stride (number * stride) blocks.length (blocks.flatten ++ tail) =
      (blocks.zipIdx number).map fun b => ⟨b.2 * stride, b.1⟩ := by
  induction blocks generalizing number with
  | nil => rfl
  | cons block rest ih =>
    have blockLength := same block (by simp)
    have next : number * stride + stride = (number + 1) * stride := (Nat.succ_mul _ _).symm
    rw [List.length_cons, Dump.windowsFrom, List.flatten_cons, List.append_assoc,
      List.take_left' blockLength, List.drop_left' blockLength, next,
      ih (number + 1) fun b member => same b (by simp [member])]
    rfl

/-- The windows of a dump are its blocks, one stride apart. -/
@[simp] theorem windows_bytes (layout : Layout stride) :
    Dump.windows stride layout.bytes = layout.windows := by
  rw [Dump.windows, drop_start, slotCount_bytes, Dump.start]
  exact windowsFrom_flatten _ _ 1 layout.length_block

/-- What is left over is the tail, unless that is empty. -/
@[simp] theorem leftover?_bytes (layout : Layout stride) :
    Dump.leftover? stride layout.bytes = if layout.tail = [] then none
      else some ⟨(layout.blocks.length + 1) * stride, layout.tail.length⟩ := by
  have rest : (layout.bytes.length - Dump.start stride) % stride = layout.tail.length := by
    rw [length_sub_start, Nat.add_comm, Nat.add_mul_mod_self_right,
      Nat.mod_eq_of_lt layout.length_tail]
  rw [Dump.leftover?, rest, slotCount_bytes, Dump.start_eq]
  simp only [List.length_eq_zero_iff, Nat.succ_mul, Nat.add_comm stride]

/-- Windows cut from octets, put together again. -/
theorem flatten_windowsFrom (offset count : Nat) (data : Bytes) :
    ((Dump.windowsFrom stride offset count data).map (·.bytes)).flatten =
      data.take (count * stride) := by
  induction count generalizing offset data with
  | zero => simp [Dump.windowsFrom]
  | succ count ih =>
    rw [Dump.windowsFrom, List.map_cons, List.flatten_cons, ih, Nat.succ_mul, Nat.add_comm,
      List.take_add]

/-- The layout of a dump that holds a header block. -/
def ofBytes (positive : 0 < stride) (data : Bytes) (enough : stride ≤ data.length) :
    Layout stride where
  head := data.take stride
  blocks := (Dump.windows stride data).map (·.bytes)
  tail := (data.drop stride).drop (Dump.slotCount stride data * stride)
  length_head := by simp [enough]
  length_block := by
    intro block member
    obtain ⟨w, window, rfl⟩ := List.mem_map.mp member
    exact Dump.length_of_mem_windows window
  length_tail := by
    have split := Nat.mod_add_div (data.length - stride) stride
    have bound := Nat.mod_lt (data.length - stride) positive
    rw [Nat.mul_comm] at split
    simp only [List.length_drop, Dump.slotCount, Dump.start_eq]
    omega

/-- Every dump of at least one stride is made of a header block, blocks and a tail. -/
theorem bytes_ofBytes (positive : 0 < stride) (data : Bytes) (enough : stride ≤ data.length) :
    (ofBytes positive data enough).bytes = data := by
  simp only [bytes, ofBytes, Dump.windows, flatten_windowsFrom, Dump.start_eq, List.append_assoc,
    List.take_append_drop]

end Layout

end RamLog
