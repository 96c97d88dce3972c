import RamLog.Text.Utf8

/-!
# Message text

A text field is padded after its first NUL (`beforeNul`). Shown as Unicode, malformed octets
are replaced and control characters are left out (`readable`).
-/
namespace RamLog.Text

/-- The octets before the first NUL, all of them when there is none. -/
def beforeNul (bs : Bytes) : Bytes := bs.takeWhile (· ≠ 0)

/-- The characters of category Cc: both control blocks and DEL. -/
def isControl (c : Char) : Bool :=
  c.toNat < 0x20 || (0x7F ≤ c.toNat && c.toNat ≤ 0x9F)

def readable (bs : Bytes) : List Char := (Utf8.lossy bs).filter (!isControl ·)

theorem beforeNul_cons (b : UInt8) (rest : Bytes) :
    beforeNul (b :: rest) = if b = 0 then [] else b :: beforeNul rest := by
  by_cases h : b = 0 <;> simp [beforeNul, h]

/-- Octets without a NUL are passed. -/
theorem beforeNul_append {a : Bytes} (full : 0 ∉ a) (b : Bytes) :
    beforeNul (a ++ b) = a ++ beforeNul b := by
  rw [beforeNul, List.takeWhile_append_of_pos]
  · rfl
  · intro octet member
    exact decide_eq_true fun zero => full (zero ▸ member)

theorem isControl_eq_false_of_mem_readable {bs : Bytes} {c : Char} (h : c ∈ readable bs) :
    isControl c = false := by
  simpa using (List.mem_filter.mp h).2

end RamLog.Text
