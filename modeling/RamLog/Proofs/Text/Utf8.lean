import RamLog.Text.Utf8

/-!
# UTF-8 read back

The octets of a character are read as that character, whatever follows them
(`decode_utf8EncodeChar_append`). Whatever precedes them, too: a character under way waits for an
octet that begins none (`Pending.Inner`), so it ends where another begins, and text is read out of
any octets around it (`decode_append_encode_append`).
-/
namespace RamLog.Text.Utf8

/-! ## The octets of a character -/

theorem first_two {n : Nat} (least : 2 ≤ n) (small : n < 32) :
    first (UInt8.ofNat (n + 0xC0)) = ⟨[], some ⟨n, 0, 0x80, 0xBF⟩⟩ := by
  have all : ∀ n : Fin 32, 2 ≤ n.val →
      first (UInt8.ofNat (n.val + 0xC0)) = ⟨[], some ⟨n.val, 0, 0x80, 0xBF⟩⟩ := by decide
  exact all ⟨n, small⟩ least

theorem first_three {n : Nat} (small : n < 16) : first (UInt8.ofNat (n + 0xE0)) =
    ⟨[], some ⟨n, 1, if n = 0 then 0xA0 else 0x80, if n = 13 then 0x9F else 0xBF⟩⟩ := by
  have all : ∀ n : Fin 16, first (UInt8.ofNat (n.val + 0xE0)) = ⟨[], some ⟨n.val, 1,
      if n.val = 0 then 0xA0 else 0x80, if n.val = 13 then 0x9F else 0xBF⟩⟩ := by decide
  exact all ⟨n, small⟩

theorem first_four {n : Nat} (small : n < 5) : first (UInt8.ofNat (n + 0xF0)) =
    ⟨[], some ⟨n, 2, if n = 0 then 0x90 else 0x80, if n = 4 then 0x8F else 0xBF⟩⟩ := by
  have all : ∀ n : Fin 5, first (UInt8.ofNat (n.val + 0xF0)) = ⟨[], some ⟨n.val, 2,
      if n.val = 0 then 0x90 else 0x80, if n.val = 4 then 0x8F else 0xBF⟩⟩ := by decide
  exact all ⟨n, small⟩

section Tail

variable {value more n : Nat} {low high : UInt8}

/-- Six bits in the range of a character under way are an octet that goes on with it. -/
theorem within_of_bits (least : low.toNat ≤ n + 0x80) (greatest : n + 0x80 ≤ high.toNat) :
    (UInt8.ofNat (n + 0x80)).toNat = n + 0x80 ∧
      low ≤ UInt8.ofNat (n + 0x80) ∧ UInt8.ofNat (n + 0x80) ≤ high := by
  have octet : (UInt8.ofNat (n + 0x80)).toNat = n + 0x80 :=
    UInt8.toNat_ofNat_of_lt' (Nat.lt_of_le_of_lt greatest high.toNat_lt)
  rw [UInt8.le_iff_toNat_le, UInt8.le_iff_toNat_le, octet]
  exact ⟨rfl, least, greatest⟩

theorem decodeFrom_tail (least : low.toNat ≤ n + 0x80) (greatest : n + 0x80 ≤ high.toNat)
    (rest : Bytes) :
    decodeFrom (some ⟨value, more + 1, low, high⟩) (UInt8.ofNat (n + 0x80) :: rest) =
      decodeFrom (some ⟨64 * value + n, more, 0x80, 0xBF⟩) rest := by
  obtain ⟨octet, within⟩ := within_of_bits least greatest
  rw [decodeFrom_cons, step]
  simp only [if_pos within, octet, Nat.add_sub_cancel, List.nil_append]

theorem decodeFrom_last (least : low.toNat ≤ n + 0x80) (greatest : n + 0x80 ≤ high.toNat)
    (rest : Bytes) :
    decodeFrom (some ⟨value, 0, low, high⟩) (UInt8.ofNat (n + 0x80) :: rest) =
      some (Char.ofNat (64 * value + n)) :: decode rest := by
  obtain ⟨octet, within⟩ := within_of_bits least greatest
  rw [decodeFrom_cons, step]
  simp only [if_pos within, octet, Nat.add_sub_cancel, List.singleton_append, decode]

end Tail

section Widths

variable {v : Nat}

theorem decode_two (least : 0x7F < v) (greatest : v ≤ 0x7FF) (rest : Bytes) :
    decode (UInt8.ofNat (v / 64 % 0x20 + 0xC0) :: UInt8.ofNat (v % 0x40 + 0x80) :: rest) =
      some (Char.ofNat v) :: decode rest := by
  have lead := first_two (n := v / 64 % 0x20) (by omega) (by omega)
  have number : 64 * (v / 64 % 0x20) + v % 0x40 = v := by omega
  rw [decode, decodeFrom_cons, step, lead, List.nil_append, decodeFrom_last, number]
  · simp only [UInt8.reduceToNat]; omega
  · simp only [UInt8.reduceToNat]; omega

/-- The first tail leaves out what two octets can spell, and the surrogates. -/
theorem decode_three (least : 0x7FF < v) (greatest : v ≤ 0xFFFF)
    (scalar : v < 0xD800 ∨ 0xDFFF < v) (rest : Bytes) :
    decode (UInt8.ofNat (v / 4096 % 0x10 + 0xE0) :: UInt8.ofNat (v / 64 % 0x40 + 0x80) ::
        UInt8.ofNat (v % 0x40 + 0x80) :: rest) = some (Char.ofNat v) :: decode rest := by
  have lead := first_three (n := v / 4096 % 0x10) (by omega)
  have number : 64 * (64 * (v / 4096 % 0x10) + v / 64 % 0x40) + v % 0x40 = v := by omega
  rw [decode, decodeFrom_cons, step, lead, List.nil_append, decodeFrom_tail, decodeFrom_last,
    number]
  · simp only [UInt8.reduceToNat]; omega
  · simp only [UInt8.reduceToNat]; omega
  · split <;> simp only [UInt8.reduceToNat] <;> omega
  · split <;> simp only [UInt8.reduceToNat] <;> omega

/-- The first tail leaves out what three octets can spell, and numbers past the last character. -/
theorem decode_four (least : 0xFFFF < v) (greatest : v < 0x110000) (rest : Bytes) :
    decode (UInt8.ofNat (v / 262144 % 0x08 + 0xF0) :: UInt8.ofNat (v / 4096 % 0x40 + 0x80) ::
        UInt8.ofNat (v / 64 % 0x40 + 0x80) :: UInt8.ofNat (v % 0x40 + 0x80) :: rest) =
      some (Char.ofNat v) :: decode rest := by
  have lead := first_four (n := v / 262144 % 0x08) (by omega)
  have number : 64 * (64 * (64 * (v / 262144 % 0x08) + v / 4096 % 0x40) + v / 64 % 0x40) +
      v % 0x40 = v := by omega
  rw [decode, decodeFrom_cons, step, lead, List.nil_append, decodeFrom_tail, decodeFrom_tail,
    decodeFrom_last, number]
  · simp only [UInt8.reduceToNat]; omega
  · simp only [UInt8.reduceToNat]; omega
  · simp only [UInt8.reduceToNat]; omega
  · simp only [UInt8.reduceToNat]; omega
  · split <;> simp only [UInt8.reduceToNat] <;> omega
  · split <;> simp only [UInt8.reduceToNat] <;> omega

end Widths

/-- The octets of a character are read as that character, whatever follows them. -/
theorem decode_utf8EncodeChar_append (c : Char) (rest : Bytes) :
    decode (String.utf8EncodeChar c ++ rest) = some c :: decode rest := by
  have scalar : c.toNat < 0xD800 ∨ 0xDFFF < c.toNat ∧ c.toNat < 0x110000 := c.valid
  have same : Char.ofNat c.toNat = c := Char.ofNat_toNat c
  simp only [String.utf8EncodeChar, Char.toNat_val]
  split
  next one =>
    have octet : (UInt8.ofNat c.toNat).toNat = c.toNat :=
      UInt8.toNat_ofNat_of_lt' (Nat.lt_of_le_of_lt one (by decide))
    have ascii : UInt8.ofNat c.toNat < 0x80 := by
      rw [UInt8.lt_iff_toNat_lt, octet]
      exact Nat.lt_succ_of_le one
    rw [List.singleton_append, decode, decodeFrom_cons, step, first_ascii _ ascii, octet, same]
    rfl
  next more =>
    split
    next two =>
      have read := decode_two (Nat.lt_of_not_le more) two rest
      rwa [same] at read
    next more =>
      split
      next three =>
        have read := decode_three (Nat.lt_of_not_le more) three (by omega) rest
        rwa [same] at read
      next more =>
        have read := decode_four (Nat.lt_of_not_le more) (by omega) rest
        rwa [same] at read

/-- The octets of a text are read as that text, whatever follows them. -/
theorem decode_encode_append (text : List Char) (rest : Bytes) :
    decode (encode text ++ rest) = text.map some ++ decode rest := by
  induction text with
  | nil => rfl
  | cons c text ih =>
    rw [encode, List.flatMap_cons, ← encode, List.append_assoc, decode_utf8EncodeChar_append, ih,
      List.map_cons, List.cons_append]

/-! ## What stands in front of a character -/

/-- An octet that goes on with a character and begins none. -/
def IsTail (b : UInt8) : Prop := 0x80 ≤ b ∧ b ≤ 0xBF

/-- A character under way that waits for an octet that begins none. -/
def Pending.Inner (p : Pending) : Prop := 0x80 ≤ p.low ∧ p.high ≤ 0xBF

theorem inner_of_first {b : UInt8} {p : Pending} (begun : (first b).pending = some p) :
    p.Inner := by
  unfold first at begun
  split at begun
  · contradiction
  · split at begun
    · contradiction
    · split at begun
      · obtain rfl := Option.some.inj begun
        exact ⟨UInt8.le_refl _, UInt8.le_refl _⟩
      · split at begun
        · obtain rfl := Option.some.inj begun
          constructor <;> dsimp only <;> split <;> decide
        · split at begun
          · obtain rfl := Option.some.inj begun
            constructor <;> dsimp only <;> split <;> decide
          · contradiction

/-- Every character that a step leaves under way waits for such an octet. -/
theorem inner_of_step {pending : Option Pending} {b : UInt8} {p : Pending}
    (left : (step pending b).pending = some p) : p.Inner := by
  cases pending with
  | none => exact inner_of_first left
  | some q =>
    obtain ⟨value, more, low, high⟩ := q
    rw [step] at left
    split at left
    · cases more with
      | zero => contradiction
      | succ more =>
        obtain rfl := Option.some.inj left
        exact ⟨UInt8.le_refl _, UInt8.le_refl _⟩
    · exact inner_of_first left

/-- Where a character is read, there stands an octet that begins one. -/
theorem not_isTail_of_decode {b : UInt8} {rest : Bytes} {c : Char} {more : List (Option Char)}
    (read : decode (b :: rest) = some c :: more) : ¬ IsTail b := by
  rintro ⟨least, greatest⟩
  have malformed : first b = ⟨[none], none⟩ := by
    have low : ¬ b < 0x80 := UInt8.not_lt.mpr least
    have high : b < 0xC2 := UInt8.lt_of_le_of_lt greatest (by decide)
    rw [first, if_neg low, if_pos high]
  rw [decode, decodeFrom_cons, step, malformed] at read
  cases read

/-- A character under way ends, malformed, where another begins. -/
theorem decodeFrom_of_not_isTail {p : Pending} (inner : p.Inner) {b : UInt8} (other : ¬ IsTail b)
    (rest : Bytes) : decodeFrom (some p) (b :: rest) = none :: decode (b :: rest) := by
  have outside : ¬ (p.low ≤ b ∧ b ≤ p.high) := fun within =>
    other ⟨UInt8.le_trans inner.1 within.1, UInt8.le_trans within.2 inner.2⟩
  rw [decodeFrom_cons, step, if_neg outside, decode, decodeFrom_cons, step, List.cons_append]

theorem decodeFrom_append {pending : Option Pending} (inner : ∀ p, pending = some p → p.Inner)
    (before : Bytes) {rest : Bytes} {c : Char} {more : List (Option Char)}
    (read : decode rest = some c :: more) :
    decodeFrom pending (before ++ rest) = decodeFrom pending before ++ decode rest := by
  induction before generalizing pending with
  | nil =>
    cases pending with
    | none => rfl
    | some p =>
      cases rest with
      | nil => cases read
      | cons b rest => exact decodeFrom_of_not_isTail (inner p rfl) (not_isTail_of_decode read) rest
  | cons b before ih =>
    rw [List.cons_append, decodeFrom_cons, decodeFrom_cons, ih fun p => inner_of_step,
      List.append_assoc]

/-- A character is read from where it begins, whatever was read before. -/
theorem decode_append (before : Bytes) {rest : Bytes} {c : Char} {more : List (Option Char)}
    (read : decode rest = some c :: more) :
    decode (before ++ rest) = decode before ++ decode rest :=
  decodeFrom_append (fun _ begun => by cases begun) before read

/-- A text is read out of any octets around it, and these are read as if it were not there. -/
theorem decode_append_encode_append {text : List Char} (some_text : text ≠ [])
    (before after : Bytes) :
    decode (before ++ encode text ++ after) = decode before ++ text.map some ++ decode after := by
  obtain ⟨c, text, rfl⟩ := List.exists_cons_of_ne_nil some_text
  have read := decode_encode_append (c :: text) after
  rw [List.append_assoc, decode_append before read, read, List.append_assoc]

/-- Only the character NUL is written with the octet zero. -/
theorem zero_notMem_encode {text : List Char} (full : '\x00' ∉ text) : 0 ∉ encode text := by
  intro member
  obtain ⟨before, after, cut⟩ := List.append_of_mem member
  have nul : decode (0 :: after) = some '\x00' :: decode after := rfl
  have nothing : decode [] = [] := rfl
  have read := decode_encode_append text []
  rw [nothing, List.append_nil, List.append_nil, cut, decode_append before nul, nul] at read
  have found : some '\x00' ∈ text.map some := by
    rw [← read]
    simp
  obtain ⟨c, there, same⟩ := List.mem_map.mp found
  exact full (Option.some.inj same ▸ there)

end RamLog.Text.Utf8
