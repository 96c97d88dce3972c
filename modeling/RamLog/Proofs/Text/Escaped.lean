import RamLog.Proofs.Text.Numerals
import RamLog.Text.Escaped

/-!
# Escapes taken back

Reading escaped text gives the octets that were written (`decode?_encode`), so different octets
never have the same escaped text, and the text is printable (`all_isPrintable_encode`).
-/
namespace RamLog.Text.Escaped

/-- An octet as a character has the number of the octet. -/
theorem toNat_ofNat_octet (b : UInt8) : (Char.ofNat b.toNat).toNat = b.toNat := by
  have bound : b.toNat < 256 := b.toNat_lt
  rw [Char.ofNat, dif_pos (Or.inl (by omega))]
  rfl

/-- Only the octet of the backslash is shown as one. -/
theorem ofNat_octet_ne_backslash {b : UInt8} (other : b ≠ 0x5C) : Char.ofNat b.toNat ≠ '\\' := by
  intro same
  have number := congrArg Char.toNat same
  rw [toNat_ofNat_octet] at number
  exact other (UInt8.toNat.inj number)

/-- A printable octet is a printable character. -/
theorem isPrintable_ofNat_octet (b : UInt8) :
    Text.isPrintable (Char.ofNat b.toNat) = isPrintable b := by
  rw [Text.isPrintable, toNat_ofNat_octet]
  rfl

theorem digits_two (n : Nat) : Hexadecimal.digits 2 n =
    [Hexadecimal.digit (n / 16 % 16), Hexadecimal.digit (n % 16)] := rfl

theorem isPrintable_octet_iff (b : UInt8) :
    isPrintable b = true ↔ 0x20 ≤ b.toNat ∧ b.toNat ≤ 0x7E := by
  rw [isPrintable, Bool.and_eq_true, decide_eq_true_eq, decide_eq_true_eq, UInt8.le_iff_toNat_le,
    UInt8.le_iff_toNat_le]
  rfl

/-- The octet that two digits stand for has their number, so it is printable if the number says so. -/
theorem octet_of_digits {h l : Nat} (smallHigh : h < 16) (smallLow : l < 16)
    (unprintable : ¬ (0x20 ≤ 16 * h + l ∧ 16 * h + l ≤ 0x7E)) :
    (UInt8.ofNat (16 * h + l)).toNat = 16 * h + l ∧
      ¬ isPrintable (UInt8.ofNat (16 * h + l)) = true := by
  have number : (UInt8.ofNat (16 * h + l)).toNat = 16 * h + l :=
    UInt8.toNat_ofNat_of_lt' (by omega : 16 * h + l < 256)
  rw [isPrintable_octet_iff, number]
  exact ⟨rfl, unprintable⟩

/-- The digits that an octet is escaped with stand for it. -/
theorem digits_octet {b : UInt8} (unprintable : ¬ isPrintable b = true) :
    16 * (b.toNat / 16 % 16) + b.toNat % 16 = b.toNat ∧
      ¬ (0x20 ≤ 16 * (b.toNat / 16 % 16) + b.toNat % 16 ∧
        16 * (b.toNat / 16 % 16) + b.toNat % 16 ≤ 0x7E) := by
  have bound : b.toNat < 256 := b.toNat_lt
  have number : 16 * (b.toNat / 16 % 16) + b.toNat % 16 = b.toNat := by omega
  rw [number, ← isPrintable_octet_iff]
  exact ⟨rfl, unprintable⟩

/-- Two digits are an escape unless their number is that of a printable octet. -/
theorem escape?_of_digit? {high low : Char} {h l : Nat} (first : Hexadecimal.digit? high = some h)
    (second : Hexadecimal.digit? low = some l)
    (unprintable : ¬ (0x20 ≤ 16 * h + l ∧ 16 * h + l ≤ 0x7E)) :
    escape? high low = some (UInt8.ofNat (16 * h + l)) := by
  obtain ⟨smallHigh, -⟩ := Hexadecimal.digit?_eq_some_iff.mp first
  obtain ⟨smallLow, -⟩ := Hexadecimal.digit?_eq_some_iff.mp second
  obtain ⟨-, hidden⟩ := octet_of_digits smallHigh smallLow unprintable
  simp only [escape?, first, second, Option.bind_eq_bind, Option.bind_some, if_neg hidden]

/-- The digits of an octet that needs an escape are read back. -/
theorem escape?_digits {b : UInt8} (unprintable : ¬ isPrintable b = true) :
    escape? (Hexadecimal.digit (b.toNat / 16 % 16)) (Hexadecimal.digit (b.toNat % 16)) =
      some b := by
  have high := Hexadecimal.digit?_digit ⟨b.toNat / 16 % 16, Nat.mod_lt _ (by decide)⟩
  have low := Hexadecimal.digit?_digit ⟨b.toNat % 16, Nat.mod_lt _ (by decide)⟩
  obtain ⟨number, hidden⟩ := digits_octet unprintable
  have read := escape?_of_digit? high low hidden
  rwa [number, UInt8.ofNat_toNat] at read

theorem decode?_cons {c : Char} (other : c ≠ '\\') (printable : Text.isPrintable c = true)
    (rest : List Char) : decode? (c :: rest) = (decode? rest).map (UInt8.ofNat c.toNat :: ·) := by
  rw [decode?.eq_def]
  split
  · contradiction
  next same => exact absurd (List.cons.inj same).1 other
  next same => exact absurd (List.cons.inj same).1 other
  next same =>
    obtain ⟨rfl, rfl⟩ := List.cons.inj same
    rw [if_pos ⟨other, (isPrintable_eq_true_iff c).mp printable⟩]

/-- One octet is read back, whatever follows it. -/
theorem decode?_encodeByte_append (b : UInt8) (rest : List Char) :
    decode? (encodeByte b ++ rest) = (decode? rest).map (b :: ·) := by
  unfold encodeByte
  split
  next backslash =>
    rw [backslash, List.cons_append, List.cons_append, List.nil_append, decode?]
  next other =>
    split
    next printable =>
      have shown := (isPrintable_ofNat_octet b).trans printable
      rw [List.singleton_append, decode?_cons (ofNat_octet_ne_backslash other) shown,
        toNat_ofNat_octet, UInt8.ofNat_toNat]
    next unprintable =>
      rw [digits_two, List.cons_append, List.cons_append, List.cons_append, List.cons_append,
        List.nil_append, decode?, escape?_digits unprintable]
      cases decode? rest <;> rfl

/-- Octets that were escaped are read back. -/
theorem decode?_encode (bs : Bytes) : decode? (encode bs) = some bs := by
  induction bs with
  | nil => rfl
  | cons b bs ih =>
    rw [encode, List.flatMap_cons, decode?_encodeByte_append, ← encode, ih]
    rfl

theorem encode_inj {a b : Bytes} (same : encode a = encode b) : a = b := by
  have read := congrArg decode? same
  rw [decode?_encode, decode?_encode] at read
  exact Option.some.inj read

theorem all_isPrintable_encodeByte (b : UInt8) :
    (encodeByte b).all Text.isPrintable = true := by
  unfold encodeByte
  split
  · rfl
  · split
    next printable =>
      rw [List.all_cons, isPrintable_ofNat_octet, printable, List.all_nil, Bool.and_true]
    · rw [List.all_cons, List.all_cons, Hexadecimal.all_isPrintable_digits]
      rfl

/-- Escaped text is printable. -/
theorem all_isPrintable_encode (bs : Bytes) : (encode bs).all Text.isPrintable = true := by
  rw [encode, List.all_flatMap, List.all_eq_true]
  exact fun b _ => all_isPrintable_encodeByte b

/-! ## The written forms -/

/-- Every octet is written in one of the three ways. -/
theorem Spelling.encodeByte_append (b : UInt8) {rest : List Char} (spelled : Spelling rest) :
    Spelling (encodeByte b ++ rest) := by
  unfold encodeByte
  split
  · exact .backslash spelled
  next other =>
    split
    next printable =>
      have shown := (Text.isPrintable_eq_true_iff _).mp
        ((isPrintable_ofNat_octet b).trans printable)
      exact .plain shown (ofNat_octet_ne_backslash other) spelled
    next unprintable =>
      have high := Hexadecimal.digit?_digit ⟨b.toNat / 16 % 16, Nat.mod_lt _ (by decide)⟩
      have low := Hexadecimal.digit?_digit ⟨b.toNat % 16, Nat.mod_lt _ (by decide)⟩
      exact .octet high low (digits_octet unprintable).2 spelled

theorem spelling_encode (bs : Bytes) : Spelling (encode bs) := by
  induction bs with
  | nil => exact .nil
  | cons b bs ih => exact ih.encodeByte_append b

/-- A printable character other than the backslash is written for its own octet. -/
theorem encodeByte_of_plain {c : Char} (printable : Text.isPrintable c = true) (other : c ≠ '\\') :
    encodeByte (UInt8.ofNat c.toNat) = [c] := by
  have same := Utf8.ofNat_octet_of_isPrintable printable
  have notBackslash : UInt8.ofNat c.toNat ≠ 0x5C := by
    intro backslash
    rw [backslash] at same
    exact other same.symm
  have shown : isPrintable (UInt8.ofNat c.toNat) = true := by
    rw [← isPrintable_ofNat_octet, same, printable]
  rw [encodeByte, if_neg notBackslash, if_pos shown, same]

/-- The digits of an escape are those that its octet is written with. -/
theorem encodeByte_of_digit? {high low : Char} {h l : Nat}
    (first : Hexadecimal.digit? high = some h) (second : Hexadecimal.digit? low = some l)
    (unprintable : ¬ (0x20 ≤ 16 * h + l ∧ 16 * h + l ≤ 0x7E)) :
    encodeByte (UInt8.ofNat (16 * h + l)) = ['\\', 'x', high, low] := by
  obtain ⟨smallHigh, rfl⟩ := Hexadecimal.digit?_eq_some_iff.mp first
  obtain ⟨smallLow, rfl⟩ := Hexadecimal.digit?_eq_some_iff.mp second
  obtain ⟨number, hidden⟩ := octet_of_digits smallHigh smallLow unprintable
  have notBackslash : UInt8.ofNat (16 * h + l) ≠ 0x5C := by
    intro backslash
    rw [backslash] at hidden
    exact hidden rfl
  have upper : (16 * h + l) / 16 % 16 = h := by omega
  have lower : (16 * h + l) % 16 = l := by omega
  rw [encodeByte, if_neg notBackslash, if_neg hidden, number, digits_two, upper, lower]

/-- A written form is read, and what was read is written in that form again. -/
theorem Spelling.exists_decode? {text : List Char} (spelled : Spelling text) :
    ∃ bs, decode? text = some bs ∧ encode bs = text := by
  induction spelled with
  | nil => exact ⟨[], rfl, rfl⟩
  | @plain c rest range other _ ih =>
    obtain ⟨bs, read, rfl⟩ := ih
    have printable : Text.isPrintable c = true := (Text.isPrintable_eq_true_iff c).mpr range
    refine ⟨UInt8.ofNat c.toNat :: bs, ?_, ?_⟩
    · rw [decode?_cons other printable, read]
      rfl
    · rw [encode, List.flatMap_cons, encodeByte_of_plain printable other]
      rfl
  | backslash _ ih =>
    obtain ⟨bs, read, rfl⟩ := ih
    refine ⟨0x5C :: bs, ?_, rfl⟩
    rw [decode?, read]
    rfl
  | @octet high low h l rest first second unprintable _ ih =>
    obtain ⟨bs, read, rfl⟩ := ih
    refine ⟨UInt8.ofNat (16 * h + l) :: bs, ?_, ?_⟩
    · rw [decode?, escape?_of_digit? first second unprintable, read]
      rfl
    · rw [encode, List.flatMap_cons, encodeByte_of_digit? first second unprintable]
      rfl

/-- Escapes are a code. Octets are written with printable characters only and are read back.
Conversely the texts that are written forms are read, and written again as they were, and no others
are ever written. Different octets therefore have different texts. -/
theorem decode?_codec :
    (∀ bs, (encode bs).all Text.isPrintable = true ∧ decode? (encode bs) = some bs) ∧
    (∀ text, Spelling text ↔ ∃ bs, decode? text = some bs ∧ encode bs = text) ∧
    (∀ a b, encode a = encode b ↔ a = b) := by
  refine ⟨fun bs => ⟨all_isPrintable_encode bs, decode?_encode bs⟩, fun text => ?_, fun a b => ?_⟩
  · constructor
    · exact Spelling.exists_decode?
    · rintro ⟨bs, -, rfl⟩
      exact spelling_encode bs
  · exact ⟨encode_inj, congrArg encode⟩

/-- Octets that spell out an escape are not taken for it. -/
example : encode [0x5C, 0x78, 0x34, 0x31, 0x0A] = "\\\\x41\\x0A".toList := by decide

end RamLog.Text.Escaped
