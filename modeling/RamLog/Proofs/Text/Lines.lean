import RamLog.Text.Utf8

/-!
# Lines

Lines that each end in a separator and hold no other are what cutting at separators gives
(`splitOn_lines`). Printable text holds no line feed, neither as characters (`lineFeed_notMem`) nor
as octets (`Utf8.lineFeed_notMem_encode`), and has one octet for each character
(`Utf8.encode_of_isPrintable`). The octets of any text determine it (`Utf8.encode_inj`).
-/
namespace RamLog.Text

section Separator

variable {α : Type} [DecidableEq α] {separator : α}

/-- Lines that end in a separator and hold no other are what cutting at separators gives. -/
theorem splitOn_lines (lines : List (List α)) (single : ∀ l ∈ lines, separator ∉ l) :
    (lines.flatMap (· ++ [separator])).splitOn separator = lines ++ [[]] := by
  induction lines with
  | nil => rfl
  | cons l lines ih =>
    rw [List.flatMap_cons, List.append_assoc, List.singleton_append,
      List.splitOn_append_cons_self_of_not_mem (single l (by simp)),
      ih fun m member => single m (by simp [member]), List.cons_append]

theorem count_lines (lines : List (List α)) (single : ∀ l ∈ lines, separator ∉ l) :
    (lines.flatMap (· ++ [separator])).count separator = lines.length := by
  induction lines with
  | nil => rfl
  | cons l lines ih =>
    rw [List.flatMap_cons, List.count_append, List.count_append,
      List.count_eq_zero.mpr (single l (by simp)), ih fun m member => single m (by simp [member]),
      List.length_cons]
    simp [Nat.add_comm]

end Separator

def isPrintable (c : Char) : Bool := 0x20 ≤ c.toNat && c.toNat ≤ 0x7E

theorem isPrintable_eq_true_iff (c : Char) :
    isPrintable c = true ↔ 0x20 ≤ c.toNat ∧ c.toNat ≤ 0x7E := by
  rw [isPrintable, Bool.and_eq_true, decide_eq_true_eq, decide_eq_true_eq]

theorem lineFeed_notMem {text : List Char} (printable : text.all isPrintable = true) :
    '\n' ∉ text := by
  intro member
  have feed := List.all_eq_true.mp printable '\n' member
  exact absurd feed (by decide)

namespace Utf8

/-- Different texts have different octets. -/
theorem encode_inj {a b : List Char} (same : encode a = encode b) : a = b := by
  have packed : a.utf8Encode = b.utf8Encode := congrArg List.toByteArray same
  rw [← String.toByteArray_ofList, ← String.toByteArray_ofList, String.toByteArray_inj] at packed
  exact String.ofList_injective packed

theorem encode_cons_ne_nil (c : Char) (text : List Char) : encode (c :: text) ≠ [] := by
  intro nothing
  have empty : encode [] = [] := rfl
  cases encode_inj (nothing.trans empty.symm)

/-- A printable character is a single octet. -/
theorem utf8EncodeChar_of_isPrintable {c : Char} (printable : isPrintable c = true) :
    String.utf8EncodeChar c = [UInt8.ofNat c.toNat] := by
  obtain ⟨_, high⟩ := (isPrintable_eq_true_iff c).mp printable
  have short : c.utf8Size = 1 := by
    rw [Char.utf8Size_eq_one_iff, UInt32.le_iff_toNat_le]
    exact Nat.le_trans high (by decide)
  rw [String.utf8EncodeChar_eq_singleton short]
  rfl

theorem encode_of_isPrintable {text : List Char} (printable : text.all isPrintable = true) :
    encode text = text.map fun c => UInt8.ofNat c.toNat := by
  induction text with
  | nil => rfl
  | cons c text ih =>
    rw [List.all_cons, Bool.and_eq_true] at printable
    rw [encode, List.flatMap_cons, utf8EncodeChar_of_isPrintable printable.1, ← encode,
      ih printable.2]
    rfl

/-- The octet of a printable character is that character again. -/
theorem ofNat_octet_of_isPrintable {c : Char} (printable : isPrintable c = true) :
    Char.ofNat (UInt8.ofNat c.toNat).toNat = c := by
  obtain ⟨_, high⟩ := (isPrintable_eq_true_iff c).mp printable
  have small : c.toNat < 256 := by omega
  rw [UInt8.toNat_ofNat_of_lt' small, Char.ofNat_toNat]

theorem lineFeed_notMem_encode {text : List Char} (printable : text.all isPrintable = true) :
    0x0A ∉ encode text := by
  rw [encode_of_isPrintable printable, List.mem_map]
  rintro ⟨c, member, octet⟩
  have shown := List.all_eq_true.mp printable c member
  rw [← ofNat_octet_of_isPrintable shown, octet] at shown
  exact absurd shown (by decide)

end Utf8

end RamLog.Text
