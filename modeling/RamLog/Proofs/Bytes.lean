import Mathlib.Algebra.Group.Nat.Defs
import RamLog.Bytes

/-!
# Numbers read back from octets

Reading what was written gives the number back modulo the width, and what is read fits the width.
-/
namespace RamLog.Bytes

/-- A number read back is reduced to the width that holds it. -/
theorem littleValue_little (width n : Nat) : littleValue (little width n) = n % 256 ^ width := by
  induction width generalizing n with
  | zero => simp [little, littleValue, Nat.mod_one]
  | succ width ih =>
    have low : (UInt8.ofNat n).toNat = n % 256 := by simp
    rw [little, littleValue, ih, low, Nat.pow_succ, Nat.mul_comm (256 ^ width) 256, Nat.mod_mul]

theorem littleValue_lt (bs : Bytes) : littleValue bs < 256 ^ bs.length := by
  induction bs with
  | nil => simp [littleValue]
  | cons b rest ih =>
    have hb : b.toNat < 256 := b.toNat_lt
    rw [littleValue, List.length_cons, Nat.pow_succ]
    omega

theorem bigValue_big (width n : Nat) : bigValue (big width n) = n % 256 ^ width := by
  simp [bigValue, big, littleValue_little]

end RamLog.Bytes
