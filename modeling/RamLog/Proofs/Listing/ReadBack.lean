import Mathlib.Data.List.Basic
import RamLog.Listing.Verbatim
import RamLog.Proofs.Scan.Order
import RamLog.Proofs.Text.Numerals

/-!
# The verbatim listing read back

Texts are written as they are, so the listing cannot be cut at line feeds. But a scan finds texts of
one length, the stride without the id (`Scan.length_text`), and the digits of an id end at the space
behind them: an entry is read from the front, whatever follows it (`readFirst?_append`). So the
stride is all one has to know to read the whole listing (`readEntries?_scan`).
-/
namespace RamLog

open Text

namespace Listing

def isDigit (b : UInt8) : Bool := (Char.ofNat b.toNat).isDigit

def number (digits : Bytes) : Nat :=
  Nat.ofDigitChars 10 (digits.map fun b => Char.ofNat b.toNat) 0

def separator : Bytes := [0x20, 0x3A, 0x20]

/-- Reads the entry of a record whose text has a given length: its id, its text, and what follows
the line feed. -/
def readFirst? (textLength : Nat) (bs : Bytes) : Option ((UInt32 × Bytes) × Bytes) := do
  let behind ← separator.isPrefixOf? (bs.dropWhile isDigit)
  let rest ← List.isPrefixOf? [0x0A] (behind.drop textLength)
  return ((UInt32.ofNat (number (bs.takeWhile isDigit)), behind.take textLength), rest)

/-- An entry takes up some octets. -/
theorem length_lt_of_readFirst? {textLength : Nat} {bs rest : Bytes} {entry : UInt32 × Bytes}
    (found : readFirst? textLength bs = some (entry, rest)) : rest.length < bs.length := by
  simp only [readFirst?, Option.bind_eq_bind, Option.bind_eq_some_iff, Option.pure_def,
    Option.some.injEq, Prod.mk.injEq, List.isPrefixOf?_eq_some_iff_append_eq] at found
  obtain ⟨behind, front, after, feed, -, rfl⟩ := found
  have shorter : behind.length < bs.length := by
    have dropped := (List.dropWhile_suffix isDigit (l := bs)).length_le
    rw [← front, List.length_append] at dropped
    have some_octet : separator.length = 3 := rfl
    omega
  have fewer : after.length < behind.length := by
    have cut := congrArg List.length feed
    rw [List.length_append, List.length_drop, List.length_singleton] at cut
    omega
  omega

def readEntries? (textLength : Nat) (bs : Bytes) : Option (List (UInt32 × Bytes)) :=
  if bs = [] then some []
  else match _found : readFirst? textLength bs with
  | none => none
  | some (entry, rest) => (readEntries? textLength rest).map (entry :: ·)
termination_by bs.length
decreasing_by exact length_lt_of_readFirst? _found

section Id

variable {n : Nat}

theorem map_ofNat_encode_digits (n : Nat) :
    (Utf8.encode (Decimal.digits n)).map (fun b => Char.ofNat b.toNat) = Decimal.digits n := by
  have printable := Decimal.all_isPrintable_digits n
  rw [Utf8.encode_of_isPrintable printable, List.map_map]
  refine (List.map_congr_left fun c member => ?_).trans (List.map_id _)
  exact Utf8.ofNat_octet_of_isPrintable (List.all_eq_true.mp printable c member)

theorem number_encode_digits (n : Nat) : number (Utf8.encode (Decimal.digits n)) = n := by
  rw [number, map_ofNat_encode_digits, Decimal.digits, Nat.ofDigitChars_ten_toDigits]

theorem isDigit_of_mem_encode_digits {b : UInt8} (member : b ∈ Utf8.encode (Decimal.digits n)) :
    isDigit b = true := by
  have char := List.mem_map_of_mem (f := fun b : UInt8 => Char.ofNat b.toNat) member
  rw [map_ofNat_encode_digits] at char
  exact Decimal.isDigit_of_mem_digits char

/-- The digits of an id end at the separator. -/
theorem span_encode_digits (n : Nat) (rest : Bytes) :
    (Utf8.encode (Decimal.digits n) ++ (separator ++ rest)).takeWhile isDigit =
        Utf8.encode (Decimal.digits n) ∧
      (Utf8.encode (Decimal.digits n) ++ (separator ++ rest)).dropWhile isDigit =
        separator ++ rest := by
  constructor
  · rw [List.takeWhile_append_of_pos fun b member => isDigit_of_mem_encode_digits member]
    exact List.append_nil _
  · rw [List.dropWhile_append_of_pos fun b member => isDigit_of_mem_encode_digits member]
    rfl

end Id

/-- An entry is read back, whatever follows it, if its text has the length that is asked for. -/
theorem readFirst?_append (r : Record) (rest : Bytes) :
    readFirst? r.text.length (r.verbatim.flatten ++ rest) = some ((r.id, r.text), rest) := by
  have parts : r.verbatim.flatten ++ rest =
      Utf8.encode (Decimal.digits r.id.toNat) ++ (separator ++ (r.text ++ ([0x0A] ++ rest))) := by
    have colon : Utf8.encode " : ".toList = separator := by decide
    simp only [Record.verbatim, Utf8.encode_append, colon, List.flatten_cons, List.flatten_nil,
      List.append_assoc, List.nil_append]
  obtain ⟨digits, behind⟩ :=
    span_encode_digits r.id.toNat (r.text ++ ([0x0A] ++ rest))
  have text : separator.isPrefixOf? (separator ++ (r.text ++ ([0x0A] ++ rest))) =
      some (r.text ++ ([0x0A] ++ rest)) := List.isPrefixOf?_eq_some_iff_append_eq.mpr rfl
  have feed : List.isPrefixOf? [0x0A] ([0x0A] ++ rest) = some rest :=
    List.isPrefixOf?_eq_some_iff_append_eq.mpr rfl
  simp only [readFirst?, parts, digits, behind, text, number_encode_digits, UInt32.ofNat_toNat,
    Option.bind_eq_bind, Option.bind_some, List.drop_left, List.take_left, feed, Option.pure_def]

/-- Entries whose texts have the length that is asked for are read back. -/
theorem readEntries?_flatMap {textLength : Nat} (records : List Record)
    (same : ∀ r ∈ records, r.text.length = textLength) :
    readEntries? textLength (records.flatMap Record.verbatim).flatten =
      some (records.map fun r => (r.id, r.text)) := by
  induction records with
  | nil => rw [List.flatMap_nil, List.flatten_nil, readEntries?, if_pos rfl, List.map_nil]
  | cons r records ih =>
    have first := readFirst?_append r (records.flatMap Record.verbatim).flatten
    rw [same r (by simp)] at first
    have some_octet : r.verbatim.flatten ++ (records.flatMap Record.verbatim).flatten ≠ [] := by
      intro none
      rw [none] at first
      exact absurd (length_lt_of_readFirst? first) (Nat.not_lt_zero _)
    rw [List.flatMap_cons, List.flatten_append, readEntries?, if_neg some_octet]
    split
    next nothing =>
      rw [first] at nothing
      cases nothing
    next entry rest found =>
      rw [first] at found
      cases found
      rw [ih fun s member => same s (by simp [member])]
      rfl

end Listing

/-- Offsets have no part in the verbatim listing. -/
theorem Journal.verbatim_eq (journal : Journal) :
    journal.verbatim = (journal.records.map fun r => (r.id, r.text)).flatMap
      fun entry => Record.verbatim ⟨0, entry.1, entry.2⟩ := by
  rw [Journal.verbatim, List.flatMap_map]
  rfl

namespace Scan

theorem length_text_of_mem_record? {w : Window} {r : Record} (found : r ∈ w.record?) :
    r.text.length = w.bytes.length - Record.idLength := by
  rw [Option.mem_def, Window.record?] at found
  split at found
  · contradiction
  · cases found
    exact List.length_drop

/-- A text that a scan finds is a stride long without the id. -/
theorem length_text {settings : Settings} {data : Bytes} {journal : Journal}
    (scanned : (scan settings data).result = .ok journal) :
    ∀ r ∈ journal.records, r.text.length = settings.stride - Record.idLength := by
  obtain ⟨-, rfl⟩ := eq_ofDump_of_result scanned
  intro r member
  obtain ⟨w, window, found⟩ := List.mem_filterMap.mp (mem_arrange.mp member)
  rw [length_text_of_mem_record? found, Dump.length_of_mem_windows window]

end Scan

/-- The verbatim listing of a scan is read back to the ids and texts that were found, by a reader
that knows the stride only. So two scans with one stride, whatever their dumps, their order and their
strictness, have the same listing exactly if they found the same messages in the same order. -/
theorem readEntries?_scan (stride : Nat) :
    (∀ settings data journal, settings.stride = stride →
      (scan settings data).result = .ok journal →
      Listing.readEntries? (stride - 4) journal.verbatim.flatten =
          some (journal.records.map fun r => (r.id, r.text)) ∧
        ∀ r ∈ journal.records, r.text.length = stride - 4) ∧
    ∀ s t x y j k, s.stride = stride → t.stride = stride →
      (scan s x).result = .ok j → (scan t y).result = .ok k →
      (j.verbatim.flatten = k.verbatim.flatten ↔
        (j.records.map fun r => (r.id, r.text)) = k.records.map fun r => (r.id, r.text)) := by
  have readBack : ∀ settings data journal, settings.stride = stride →
      (scan settings data).result = .ok journal →
      Listing.readEntries? (stride - 4) journal.verbatim.flatten =
          some (journal.records.map fun r => (r.id, r.text)) ∧
        ∀ r ∈ journal.records, r.text.length = stride - 4 := by
    rintro settings data journal rfl scanned
    have lengths := Scan.length_text scanned
    exact ⟨Listing.readEntries?_flatMap journal.records lengths, lengths⟩
  refine ⟨readBack, ?_⟩
  intro s t x y j k strideS strideT scannedX scannedY
  constructor
  · intro same
    obtain ⟨readX, -⟩ := readBack s x j strideS scannedX
    obtain ⟨readY, -⟩ := readBack t y k strideT scannedY
    rw [same, readY] at readX
    exact (Option.some.inj readX).symm
  · intro same
    rw [Journal.verbatim_eq, Journal.verbatim_eq, same]

/-- Texts of digits, spaces, colons and line feeds: a strict scan in the order of ids, and a lenient
one of a dump that has an empty slot and octets left over. -/
theorem readEntries?_scan_digits :
    let x : Bytes := List.replicate 7 0 ++
      [0, 0, 0, 10, 0x0A, 0x31, 0x20] ++ [0, 0, 0, 2, 0x30, 0x20, 0x3A]
    let y : Bytes := List.replicate 7 9 ++
      [0, 0, 0, 2, 0x30, 0x20, 0x3A] ++ List.replicate 7 0 ++ [0, 0, 0, 10, 0x0A, 0x31, 0x20] ++ [1]
    let j : Journal := {
      records := [⟨14, 2, [0x30, 0x20, 0x3A]⟩, ⟨7, 10, [0x0A, 0x31, 0x20]⟩]
      stride := 7
      slots := 2 }
    let k : Journal := {
      records := [⟨7, 2, [0x30, 0x20, 0x3A]⟩, ⟨21, 10, [0x0A, 0x31, 0x20]⟩]
      stride := 7
      slots := 3
      emptySlots := 1
      leftover := some ⟨28, 1⟩ }
    (scan { stride := 7, strict := true, order := .sequence } x).result = .ok j ∧
      (scan { stride := 7 } y).result = .ok k ∧
      Listing.readEntries? 3 j.verbatim.flatten =
        some [(2, [0x30, 0x20, 0x3A]), (10, [0x0A, 0x31, 0x20])] ∧
      j.verbatim.flatten = k.verbatim.flatten := by
  intro x y j k
  let settings : Settings := { stride := 7, strict := true }
  have inFile : Journal.ofDump settings x = { j with records :=
      [⟨7, 10, [0x0A, 0x31, 0x20]⟩, ⟨14, 2, [0x30, 0x20, 0x3A]⟩] } := by decide
  have sorted : Order.sequence.arrange (Journal.ofDump settings x).records = j.records := by
    rw [inFile]
    exact Order.arrange_sequence_eq (.swap _ _ _) (by decide)
  have inOrder : Journal.ofDump { settings with order := .sequence } x = { Journal.ofDump settings x
      with records := Order.sequence.arrange (Journal.ofDump settings x).records } := rfl
  rw [sorted, inFile] at inOrder
  have scannedX : (scan { stride := 7, strict := true, order := .sequence } x).result = .ok j := by
    rw [Scan.result_eq_ok _ _ (by decide) fun _ => by decide, inOrder]
  have found : Journal.ofDump { stride := 7 } y = k := by decide
  have scannedY : (scan { stride := 7 } y).result = .ok k := by
    rw [Scan.result_eq_ok { stride := 7 } y (by decide) nofun, found]
  obtain ⟨readBack, same⟩ := readEntries?_scan 7
  exact ⟨scannedX, scannedY, (readBack _ x j rfl scannedX).1,
    (same _ _ x y j k rfl rfl scannedX scannedY).mpr rfl⟩

end RamLog
