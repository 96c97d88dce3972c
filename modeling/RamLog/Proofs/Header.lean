import RamLog.Header
import RamLog.Proofs.Bytes

/-!
# Headers and their octets

A header that is read is written with the octets it was read from (`encode_of_decode`), and one that
is written is read back, whatever follows it (`decode_encode_append`): every twenty octets are a header
of their own. So whether a header is blank can be seen from its octets (`isBlank_iff`).
-/
namespace RamLog.Header

open Bytes

/-! ## Words -/

/-- A word is read back in front of any octets. -/
theorem wordAt_zero_append (w : UInt32) (rest : Bytes) :
    wordAt (little 4 w.toNat ++ rest) 0 = w := by
  have fits : w.toNat % 256 ^ 4 = w.toNat := Nat.mod_eq_of_lt w.toNat_lt
  rw [wordAt, List.drop_zero, List.take_left' (length_little 4 w.toNat), littleValue_little, fits,
    UInt32.ofNat_toNat]

/-- A word in front is passed over. -/
theorem wordAt_add_append (w : UInt32) (rest : Bytes) (offset : Nat) :
    wordAt (little 4 w.toNat ++ rest) (4 + offset) = wordAt rest offset := by
  have behind := @List.drop_length_add_append _ (little 4 w.toNat) rest offset
  rw [length_little] at behind
  rw [wordAt, behind, wordAt]

/-- A word is written with the octets it was read from. -/
theorem little_wordAt {data : Bytes} {offset : Nat} (room : offset + 4 ≤ data.length) :
    little 4 (wordAt data offset).toNat = (data.drop offset).take 4 := by
  have four : ((data.drop offset).take 4).length = 4 := by
    rw [List.length_take, List.length_drop]
    omega
  have small := littleValue_lt ((data.drop offset).take 4)
  have written := little_littleValue ((data.drop offset).take 4)
  rw [four] at small written
  rw [wordAt, UInt32.toNat_ofNat_of_lt' small, written]

/-! ## Headers -/

variable {h k : Header} {data : Bytes}

theorem encode_append_eq (h : Header) (rest : Bytes) : h.encode ++ rest =
    little 4 h.base.toNat ++ (little 4 h.start.toNat ++ (little 4 h.stop.toNat ++
      (little 4 h.cursor.toNat ++ (little 4 h.count.toNat ++ rest)))) := by
  simp [encode, words]

/-- A header that is written is read back, whatever follows it. -/
theorem decode_encode_append (h : Header) (rest : Bytes) : decode (h.encode ++ rest) = .ok h := by
  have enough : ¬ (h.encode ++ rest).length < length := by
    rw [List.length_append, length_encode]
    exact Nat.not_lt.mpr (Nat.le_add_right _ _)
  have start : wordAt (h.encode ++ rest) (4 + 0) = h.start := by
    rw [encode_append_eq, wordAt_add_append, wordAt_zero_append]
  have stop : wordAt (h.encode ++ rest) (4 + (4 + 0)) = h.stop := by
    rw [encode_append_eq, wordAt_add_append, wordAt_add_append, wordAt_zero_append]
  have cursor : wordAt (h.encode ++ rest) (4 + (4 + (4 + 0))) = h.cursor := by
    rw [encode_append_eq, wordAt_add_append, wordAt_add_append, wordAt_add_append,
      wordAt_zero_append]
  have count : wordAt (h.encode ++ rest) (4 + (4 + (4 + (4 + 0)))) = h.count := by
    rw [encode_append_eq, wordAt_add_append, wordAt_add_append, wordAt_add_append,
      wordAt_add_append, wordAt_zero_append]
  have base : wordAt (h.encode ++ rest) 0 = h.base := by
    rw [encode_append_eq, wordAt_zero_append]
  rw [decode, if_neg enough, base, start, stop, cursor, count]

/-- A header that is read is written with the octets it was read from. -/
theorem encode_of_decode (read : decode data = .ok h) : h.encode = data.take length := by
  unfold decode at read
  split at read
  · contradiction
  next long =>
    obtain rfl := Except.ok.inj read
    have enough : 20 ≤ data.length := Nat.not_lt.mp long
    have cut : data.take length = (data.drop 0).take 4 ++ ((data.drop 4).take 4 ++
        ((data.drop 8).take 4 ++ ((data.drop 12).take 4 ++ (data.drop 16).take 4))) := by
      have twenty : length = 4 + (4 + (4 + (4 + 4))) := rfl
      simp only [twenty, List.take_add, List.drop_drop, List.drop_zero]
    rw [cut, ← little_wordAt (by omega), ← little_wordAt (by omega), ← little_wordAt (by omega),
      ← little_wordAt (by omega), ← little_wordAt (by omega)]
    simp [encode, words]

theorem encode_inj (same : h.encode = k.encode) : h = k := by
  have read := decode_encode_append h []
  rw [same, decode_encode_append k []] at read
  exact (Except.ok.inj read).symm

/-! ## Blank headers -/

theorem all_words_iff (w : UInt32) : h.words.all (· = w) = true ↔ h = ⟨w, w, w, w, w⟩ := by
  obtain ⟨base, start, stop, cursor, count⟩ := h
  simp [words]

/-- A header is blank if its octets are all set or all zero. -/
theorem isBlank_iff : h.isBlank = true ↔
    h.encode = List.replicate length 0xFF ∨ h.encode = List.replicate length 0 := by
  have wiped : List.replicate length 0xFF =
      encode ⟨0xFFFFFFFF, 0xFFFFFFFF, 0xFFFFFFFF, 0xFFFFFFFF, 0xFFFFFFFF⟩ := by decide
  have unwritten : List.replicate length 0 = encode ⟨0, 0, 0, 0, 0⟩ := by decide
  rw [isBlank, Bool.or_eq_true, all_words_iff, all_words_iff, wiped, unwritten]
  exact or_congr ⟨congrArg encode, encode_inj⟩ ⟨congrArg encode, encode_inj⟩

end RamLog.Header
