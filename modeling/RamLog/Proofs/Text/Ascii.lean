import RamLog.Proofs.Text.Escaped
import RamLog.Text.Utf8

/-!
# ASCII in UTF-8

A character under way never becomes an ASCII character: the least number it can have
(`Pending.least`) is out of their range, and every octet taken up keeps it there. So an ASCII character
is read from its own octet only (`decode_octet_cons`, `eq_octet_cons_of_decode`).
-/
namespace RamLog.Text.Utf8

/-- The least number that a character under way can have. -/
def Pending.least (p : Pending) : Nat := (64 * p.value + (p.low.toNat - 0x80)) * 64 ^ p.more

/-- ASCII characters other than NUL, which stands for a number that is no character. -/
def IsAscii (c : Char) : Prop := 0 < c.toNat ∧ c.toNat < 0x80

theorem not_isAscii_ofNat {n : Nat} (large : 0x80 ≤ n) : ¬ IsAscii (Char.ofNat n) := by
  rintro ⟨some_bit, small⟩
  by_cases valid : n.isValidChar
  · have read : Char.ofNat n = Char.ofNatAux n valid := dif_pos valid
    have same : (Char.ofNatAux n valid).toNat = n := rfl
    rw [read, same] at small
    omega
  · have nul : Char.ofNat n = Char.ofNat 0 := dif_neg valid
    rw [nul] at some_bit
    contradiction

/-- An octet outside ASCII is malformed, or begins a character outside ASCII. -/
theorem first_of_not_lt {b : UInt8} (large : ¬ b < 0x80) :
    first b = ⟨[none], none⟩ ∨ ∃ p, first b = ⟨[], some p⟩ ∧ 0x80 ≤ p.least := by
  have tail : (0x80 : UInt8).toNat = 128 := rfl
  unfold first
  rw [if_neg large]
  split
  · exact .inl rfl
  next notMalformed =>
    split
    · refine .inr ⟨_, rfl, ?_⟩
      have atLeast : (0xC2 : UInt8).toNat ≤ b.toNat := UInt8.not_lt.mp notMalformed
      have two : (0xC2 : UInt8).toNat = 0xC2 := rfl
      simp only [Pending.least, tail, Nat.sub_self, Nat.pow_zero, Nat.mul_one, Nat.add_zero]
      omega
    next notTwo =>
      split
      · refine .inr ⟨_, rfl, ?_⟩
        -- The second octet after 0xE0 excludes numbers that two octets can spell.
        by_cases same : b = 0xE0
        · rw [same]
          decide
        · have atLeast : (0xE0 : UInt8).toNat ≤ b.toNat := UInt8.not_lt.mp notTwo
          have other : b.toNat ≠ (0xE0 : UInt8).toNat := fun e => same (UInt8.toNat.inj e)
          have three : (0xE0 : UInt8).toNat = 0xE0 := rfl
          simp only [Pending.least, if_neg same, tail, Nat.sub_self, Nat.pow_one, Nat.add_zero]
          omega
      next notThree =>
        split
        · refine .inr ⟨_, rfl, ?_⟩
          by_cases same : b = 0xF0
          · rw [same]
            decide
          · have atLeast : (0xF0 : UInt8).toNat ≤ b.toNat := UInt8.not_lt.mp notThree
            have other : b.toNat ≠ (0xF0 : UInt8).toNat := fun e => same (UInt8.toNat.inj e)
            have four : (0xF0 : UInt8).toNat = 0xF0 := rfl
            simp only [Pending.least, if_neg same, tail, Nat.sub_self, Nat.add_zero]
            omega
        · exact .inl rfl

/-- Reading on from a character under way gives a character outside ASCII, or a malformed stretch. -/
theorem decodeFrom_some {p : Pending} (large : 0x80 ≤ p.least) (bs : Bytes) :
    ∃ head rest, decodeFrom (some p) bs = head :: rest ∧ ∀ c, head = some c → ¬ IsAscii c := by
  induction bs generalizing p with
  | nil => exact ⟨none, [], rfl, fun c same => nomatch same⟩
  | cons b bs ih =>
    obtain ⟨value, more, low, high⟩ := p
    rw [decodeFrom_cons]
    by_cases inside : low ≤ b ∧ b ≤ high
    · have atLeast : low.toNat ≤ b.toNat := UInt8.le_iff_toNat_le.mp inside.1
      have grown : 64 * value + (low.toNat - 0x80) ≤ 64 * value + (b.toNat - 0x80) :=
        Nat.add_le_add_left (Nat.sub_le_sub_right atLeast _) _
      have further := Nat.le_trans large (Nat.mul_le_mul_right (64 ^ more) grown)
      cases more with
      | zero =>
        have read : step (some ⟨value, 0, low, high⟩) b =
            ⟨[some (Char.ofNat (64 * value + (b.toNat - 0x80)))], none⟩ := if_pos inside
        rw [Nat.pow_zero, Nat.mul_one] at further
        rw [read]
        exact ⟨_, _, rfl, fun c same => Option.some.inj same ▸ not_isAscii_ofNat further⟩
      | succ more =>
        have read : step (some ⟨value, more + 1, low, high⟩) b =
            ⟨[], some ⟨64 * value + (b.toNat - 0x80), more, 0x80, 0xBF⟩⟩ := if_pos inside
        have tail : (0x80 : UInt8).toNat - 0x80 = 0 := rfl
        rw [Nat.pow_succ, Nat.mul_comm (64 ^ more), ← Nat.mul_assoc, Nat.mul_comm _ 64] at further
        rw [read]
        refine ih ?_
        rw [Pending.least, tail, Nat.add_zero]
        exact further
    · have read : step (some ⟨value, more, low, high⟩) b =
          ⟨none :: (first b).out, (first b).pending⟩ := if_neg inside
      rw [read]
      exact ⟨none, _, rfl, fun c same => nomatch same⟩

def octet (c : Char) : UInt8 := UInt8.ofNat c.toNat

theorem toNat_octet {c : Char} (ascii : IsAscii c) : (octet c).toNat = c.toNat :=
  UInt8.toNat_ofNat_of_lt' (Nat.lt_trans ascii.2 (by decide))

theorem ofNat_octet {c : Char} (ascii : IsAscii c) : Char.ofNat (octet c).toNat = c := by
  rw [toNat_octet ascii, Char.ofNat_toNat]

theorem decode_octet_cons {c : Char} (ascii : IsAscii c) (bs : Bytes) :
    decode (octet c :: bs) = some c :: decode bs := by
  have small : octet c < 0x80 := by
    rw [UInt8.lt_iff_toNat_lt, toNat_octet ascii]
    exact ascii.2
  rw [decode, decodeFrom_cons, step, first_ascii _ small, ofNat_octet ascii]
  rfl

/-- Octets read as an ASCII character and more begin with the octet of that character. -/
theorem eq_octet_cons_of_decode {c : Char} {more : List (Option Char)} {bs : Bytes}
    (ascii : IsAscii c) (read : decode bs = some c :: more) :
    ∃ rest, bs = octet c :: rest ∧ decode rest = more := by
  cases bs with
  | nil => cases read
  | cons b rest =>
    rw [decode, decodeFrom_cons, step] at read
    by_cases small : b < 0x80
    · rw [first_ascii b small] at read
      obtain ⟨same, behind⟩ := List.cons.inj read
      cases same
      refine ⟨rest, ?_, behind⟩
      rw [octet, Escaped.toNat_ofNat_octet, UInt8.ofNat_toNat]
    · rcases first_of_not_lt small with malformed | ⟨p, begun, large⟩
      · rw [malformed] at read
        cases read
      · obtain ⟨head, behind, found, outside⟩ := decodeFrom_some large rest
        rw [begun, List.nil_append, found] at read
        exact absurd ascii (outside c (List.cons.inj read).1)

/-- Some octets are never read as nothing. -/
theorem decode_cons_ne_nil (b : UInt8) (bs : Bytes) : decode (b :: bs) ≠ [] := by
  rw [decode, decodeFrom_cons, step]
  by_cases small : b < 0x80
  · rw [first_ascii b small]
    exact List.cons_ne_nil _ _
  · rcases first_of_not_lt small with malformed | ⟨p, begun, large⟩
    · rw [malformed]
      exact List.cons_ne_nil _ _
    · obtain ⟨head, behind, found, -⟩ := decodeFrom_some large bs
      rw [begun, List.nil_append, found]
      exact List.cons_ne_nil _ _

end RamLog.Text.Utf8
