import RamLog.Csv.Writer
import RamLog.Proofs.Text.Utf8

/-!
# Readable text amid damaged octets

Text without control characters keeps every character that the octets spell: a text comes out of any
octets around it without its control characters and with nothing else changed
(`readable_append_encode_append`), and so it does in the message of a record. What comes out is
well-formed, so reading it once more changes nothing.
-/
namespace RamLog.Text

/-- The control characters are the two blocks of category Cc. -/
theorem isControl_eq_true_iff (c : Char) :
    isControl c = true ↔ c.toNat ≤ 0x1F ∨ (0x7F ≤ c.toNat ∧ c.toNat ≤ 0x9F) := by
  rw [isControl, Bool.or_eq_true, Bool.and_eq_true, decide_eq_true_eq, decide_eq_true_eq,
    decide_eq_true_eq, Nat.lt_succ_iff]

theorem readable_append_encode_append {text : List Char} (some_text : text ≠ [])
    (before after : Bytes) :
    readable (before ++ Utf8.encode text ++ after) =
      readable before ++ text.filter (!isControl ·) ++ readable after := by
  have kept : (text.map some).map (·.getD Utf8.replacement) = text := by
    rw [List.map_map]
    exact List.map_id text
  rw [readable, Utf8.lossy, Utf8.decode_append_encode_append some_text, List.map_append,
    List.map_append, kept, List.filter_append, List.filter_append]
  rfl

theorem readable_encode (text : List Char) :
    readable (Utf8.encode text) = text.filter (!isControl ·) := by
  cases text with
  | nil => rfl
  | cons c text =>
    have alone := readable_append_encode_append (List.cons_ne_nil c text) [] []
    simpa [readable, Utf8.lossy, Utf8.decode, Utf8.decodeFrom] using alone

/-- Readable text has no control character to lose. -/
theorem filter_readable (bs : Bytes) : (readable bs).filter (!isControl ·) = readable bs := by
  rw [List.filter_eq_self]
  intro c member
  rw [isControl_eq_false_of_mem_readable member]
  rfl

theorem notMem_readable {c : Char} (control : isControl c = true) (bs : Bytes) :
    c ∉ readable bs := by
  intro member
  rw [isControl_eq_false_of_mem_readable member] at control
  contradiction

/-- A text comes out of any octets around it without its control characters and with nothing else
changed, in the message of a record as well, as long as no NUL ends the message before it does. By
itself, octets that are well-formed are shown as they are. No control character is ever shown, and what
is shown is shown again as it is. -/
theorem readable_keeps_text :
    (∀ c, isControl c = true ↔ c.toNat ≤ 0x1F ∨ (0x7F ≤ c.toNat ∧ c.toNat ≤ 0x9F)) ∧
    (∀ (before after : Bytes) (text : List Char), text ≠ [] →
      readable (before ++ Utf8.encode text ++ after) =
        readable before ++ text.filter (!isControl ·) ++ readable after) ∧
    (∀ text, readable (Utf8.encode text) = text.filter (!isControl ·)) ∧
    (∀ bs, (∀ c ∈ readable bs, isControl c = false) ∧
      '\n' ∉ readable bs ∧ '\r' ∉ readable bs ∧ '\x00' ∉ readable bs ∧ '\u0085' ∉ readable bs ∧
      readable (Utf8.encode (readable bs)) = readable bs) ∧
    (∀ (r : Record) (before after : Bytes) (text : List Char), text ≠ [] → 0 ∉ before →
      '\x00' ∉ text → r.text = before ++ Utf8.encode text ++ after →
        Csv.message r =
          readable before ++ text.filter (!isControl ·) ++ readable (beforeNul after)) := by
  refine ⟨isControl_eq_true_iff, fun before after text some_text =>
    readable_append_encode_append some_text before after, readable_encode, ?_, ?_⟩
  · intro bs
    refine ⟨fun c member => isControl_eq_false_of_mem_readable member, notMem_readable rfl bs,
      notMem_readable rfl bs, notMem_readable rfl bs, notMem_readable rfl bs, ?_⟩
    rw [readable_encode, filter_readable]
  · intro r before after text some_text fullBefore fullText field
    have full : 0 ∉ before ++ Utf8.encode text := by
      rw [List.mem_append, not_or]
      exact ⟨fullBefore, Utf8.zero_notMem_encode fullText⟩
    rw [Csv.message, field, beforeNul_append full, readable_append_encode_append some_text]

/-- A message that is cut inside a character in front of `é` and damaged behind the line feed. -/
def damaged : Record where
  offset := 128
  id := 7
  text := [0xE2, 0x82, 0xC3, 0xA9, 0x0A, 0xA9, 0x00, 0x41]

theorem readable_keeps_text_damaged :
    ['é', '\n'] ≠ [] ∧ 0 ∉ ([0xE2, 0x82] : Bytes) ∧ '\x00' ∉ ['é', '\n'] ∧
      damaged.text = [0xE2, 0x82] ++ Utf8.encode ['é', '\n'] ++ [0xA9, 0x00, 0x41] ∧
      readable ([0xE2, 0x82] ++ Utf8.encode ['é', '\n'] ++ [0xA9]) =
        [Utf8.replacement, 'é', Utf8.replacement] ∧
      'é' ∈ readable [0xC3, 0xA9] ∧ isControl 'é' = false ∧
      Csv.message damaged = [Utf8.replacement, 'é', Utf8.replacement] := by
  have some_text : ['é', '\n'] ≠ [] := by decide
  have fullBefore : 0 ∉ ([0xE2, 0x82] : Bytes) := by decide
  have fullText : '\x00' ∉ ['é', '\n'] := by decide
  have field : damaged.text = [0xE2, 0x82] ++ Utf8.encode ['é', '\n'] ++ [0xA9, 0x00, 0x41] := by
    decide
  have shown : 'é' ∈ readable [0xC3, 0xA9] := by decide
  obtain ⟨_, around, _, clean, message⟩ := readable_keeps_text
  exact ⟨some_text, fullBefore, fullText, field, around _ _ _ some_text, shown,
    (clean _).1 _ shown, message damaged _ _ _ some_text fullBefore fullText field⟩

end RamLog.Text
