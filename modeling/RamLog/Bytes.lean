/-!
# Bytes and the numbers they spell

Octet strings are lists, which proofs can take apart. A number is written in a fixed count of
octets, least significant first (`little`) or last (`big`); writing what was read gives the octets
back.
-/
namespace RamLog

abbrev Bytes := List UInt8

namespace Bytes

/-- The number spelled with the least significant octet first. -/
def littleValue : Bytes → Nat
  | [] => 0
  | b :: rest => b.toNat + 256 * littleValue rest

/-- The low octets of a number, least significant first. -/
def little : (width : Nat) → Nat → Bytes
  | 0, _ => []
  | width + 1, n => UInt8.ofNat n :: little width (n / 256)

def bigValue (bs : Bytes) : Nat := littleValue bs.reverse

def big (width n : Nat) : Bytes := (little width n).reverse

@[simp] theorem length_little (width n : Nat) : (little width n).length = width := by
  induction width generalizing n with
  | zero => rfl
  | succ width ih => simp [little, ih]

@[simp] theorem length_big (width n : Nat) : (big width n).length = width := by
  simp [big]

/-- The octets of the number they spell are those octets. -/
theorem little_littleValue (bs : Bytes) : little bs.length (littleValue bs) = bs := by
  induction bs with
  | nil => rfl
  | cons b rest ih =>
    have hb : b.toNat < 256 := b.toNat_lt
    have head : UInt8.ofNat (b.toNat + 256 * littleValue rest) = b := by
      apply UInt8.toNat.inj
      simp only [UInt8.toNat_ofNat']
      omega
    have tail : (b.toNat + 256 * littleValue rest) / 256 = littleValue rest := by omega
    rw [List.length_cons, little, littleValue, head, tail, ih]

/-- The most significant octet first: each octet after it moves the others up one place. -/
theorem bigValue_eq_foldl (bs : Bytes) :
    bigValue bs = bs.foldl (fun high b => 256 * high + b.toNat) 0 := by
  have little : ∀ cs : Bytes, littleValue cs = cs.foldr (fun b high => 256 * high + b.toNat) 0 := by
    intro cs
    induction cs with
    | nil => rfl
    | cons b rest ih => rw [littleValue, List.foldr_cons, ih, Nat.add_comm]
  rw [bigValue, little, List.foldr_reverse]

end Bytes

end RamLog
