import RamLog.Proofs.Listing.Padding
import RamLog.Proofs.Text.Escaped

/-!
# The detailed listing read back

Every line of the listing is printable, so cutting its octets at line feeds gives the lines again,
one for each record (`splitOn_details`). A line is then read from its front: a number ends where its
separator begins, an address has eight digits, and escapes can be taken back. Two journals therefore
have the same listing exactly if they agree in what is shown (`details_eq_iff`).
-/
namespace RamLog

open Text

namespace Listing

/-- Headers that look alike: both missing, both blank, or of the same words. -/
inductive SameHeader : Option Header → Option Header → Prop
  | missing : SameHeader none none
  | blank {h k : Header} : h.isBlank = true → k.isBlank = true → SameHeader (some h) (some k)
  | words (h : Header) : SameHeader (some h) (some h)

theorem headerLines_of_blank {stride : Nat} {h : Header} (blank : h.isBlank = true) :
    headerLines stride (some h) = ["(uninitialised)".toList] := if_pos blank

theorem headerLines_of_words {stride : Nat} {h : Header} (words : ¬ h.isBlank = true) :
    headerLines stride (some h) = [
      "Base: ".toList ++ address h.base,
      "Start: ".toList ++ address h.start,
      "End: ".toList ++ address h.stop,
      "Current: ".toList ++ address h.cursor ++ ' ' :: place (h.nextSlot? stride),
      "Count: ".toList ++ Decimal.digits h.count.toNat] := if_neg words

theorem all_isPrintable_address (word : UInt32) : (address word).all isPrintable = true := by
  rw [address, List.all_cons, List.all_cons, Hexadecimal.all_isPrintable_digits]
  rfl

theorem all_isPrintable_place (slot : Option Nat) : (place slot).all isPrintable = true := by
  cases slot with
  | none => decide
  | some slot =>
    have parts : place (some slot) = "(slot ".toList ++ Decimal.digits slot ++ ")".toList := rfl
    rw [parts, List.all_append, List.all_append, Decimal.all_isPrintable_digits]
    decide

theorem all_isPrintable_headerLines (stride : Nat) (header : Option Header) :
    ∀ line ∈ headerLines stride header, line.all isPrintable = true := by
  intro line member
  cases header with
  | none =>
    rw [List.mem_singleton.mp member]
    decide
  | some h =>
    by_cases blank : h.isBlank = true
    · rw [headerLines_of_blank blank, List.mem_singleton] at member
      rw [member]
      decide
    · rw [headerLines_of_words blank] at member
      simp only [List.mem_cons, List.not_mem_nil, or_false] at member
      rcases member with rfl | rfl | rfl | rfl | rfl <;>
        simp only [List.all_append, List.all_cons, all_isPrintable_address, all_isPrintable_place,
          Decimal.all_isPrintable_digits] <;>
        decide

theorem all_isPrintable_summaryLines (journal : Journal) :
    ∀ line ∈ summaryLines journal, line.all isPrintable = true := by
  intro line member
  simp only [summaryLines, List.mem_cons, List.not_mem_nil, or_false] at member
  rcases member with rfl | rfl <;>
    simp only [List.all_append, Decimal.all_isPrintable_digits] <;>
    decide

theorem all_isPrintable_leftoverLines (leftover : Option Leftover) :
    ∀ line ∈ leftoverLines leftover, line.all isPrintable = true := by
  intro line member
  cases leftover with
  | none => contradiction
  | some rest =>
    rw [List.mem_singleton.mp member]
    simp only [List.all_append, Decimal.all_isPrintable_digits]
    decide

theorem all_isPrintable_recordLine (r : Record) : (recordLine r).all isPrintable = true := by
  simp only [recordLine, List.cons_append, List.all_cons, List.all_append,
    Decimal.all_isPrintable_column, Decimal.all_isPrintable_digits, Escaped.all_isPrintable_encode]
  decide

section Read

variable {rest more : List (List Char)}

theorem length_address (word : UInt32) : (address word).length = 10 := by
  simp [address]

theorem address_inj {v w : UInt32} (same : address v = address w) : v = w := by
  have digits := (List.cons.inj (List.cons.inj same).2).2
  exact UInt32.toNat.inj (Hexadecimal.digits_inj v.toNat_lt w.toNat_lt digits)

/-- The five lines of a header determine its words, whatever follows them. -/
theorem headerLines_inj {stride other : Nat} {h k : Header} (hWords : ¬ h.isBlank = true)
    (kWords : ¬ k.isBlank = true)
    (same : headerLines stride (some h) ++ rest = headerLines other (some k) ++ more) :
    h = k ∧ rest = more := by
  simp only [headerLines_of_words hWords, headerLines_of_words kWords, List.cons_append,
    List.nil_append, List.cons.injEq, List.append_assoc, List.append_cancel_left_eq] at same
  obtain ⟨base, start, stop, cursor, count, rest⟩ := same
  have lengths : (address h.cursor).length = (address k.cursor).length := by
    rw [length_address, length_address]
  have words : h = k := by
    cases h
    cases k
    simp only [Header.mk.injEq]
    exact ⟨address_inj base, address_inj start, address_inj stop,
      address_inj (List.append_inj cursor lengths).1, UInt32.toNat.inj (Decimal.digits_inj count)⟩
  exact ⟨words, rest⟩

/-- The first two characters of the lines about a header, which tell its kind. -/
def beginning : Option Header → List Char
  | none => ['(', 'm']
  | some h => if h.isBlank then ['(', 'u'] else ['B', 'a']

theorem take_head_headerLines (stride : Nat) (header : Option Header) :
    (headerLines stride header ++ rest).head?.map (List.take 2) = some (beginning header) := by
  cases header with
  | none => rfl
  | some h =>
    by_cases blank : h.isBlank = true
    · rw [headerLines_of_blank blank, beginning, if_pos blank]
      rfl
    · rw [headerLines_of_words blank, beginning, if_neg blank]
      rfl

/-- The lines about the header say which header it is and where they end. -/
theorem sameHeader_of_headerLines {stride other : Nat} {header header' : Option Header}
    (same : headerLines stride header ++ summaryRule :: rest =
      headerLines other header' ++ summaryRule :: more) :
    SameHeader header header' ∧ rest = more := by
  have kinds := congrArg (fun lines => lines.head?.map (List.take 2)) same
  simp only [take_head_headerLines, Option.some.injEq] at kinds
  cases header with
  | none =>
    cases header' with
    | none => exact ⟨.missing, (List.cons.inj (List.cons.inj same).2).2⟩
    | some k => by_cases blank : k.isBlank = true <;> simp [beginning, blank] at kinds
  | some h =>
    cases header' with
    | none => by_cases blank : h.isBlank = true <;> simp [beginning, blank] at kinds
    | some k =>
      have alike : h.isBlank = k.isBlank := by
        cases hBlank : h.isBlank <;> cases kBlank : k.isBlank <;>
          simp [beginning, hBlank, kBlank] at kinds ⊢
      by_cases blank : h.isBlank = true
      · rw [headerLines_of_blank blank, headerLines_of_blank (alike ▸ blank)] at same
        exact ⟨.blank blank (alike ▸ blank), (List.cons.inj (List.cons.inj same).2).2⟩
      · obtain ⟨rfl, behind⟩ := headerLines_inj blank (alike ▸ blank) same
        exact ⟨.words h, (List.cons.inj behind).2⟩

theorem summaryLines_inj {j k : Journal}
    (same : summaryLines j ++ rest = summaryLines k ++ more) :
    j.stride = k.stride ∧ j.slots = k.slots ∧ j.emptySlots = k.emptySlots ∧
      j.records.length = k.records.length ∧ rest = more := by
  simp only [summaryLines, List.cons_append, List.nil_append, List.cons.injEq, List.append_assoc,
    List.append_cancel_left_eq] at same
  obtain ⟨stride, counts, behind⟩ := same
  obtain ⟨slots, counts⟩ := Decimal.digits_append_inj ⟨' ', by decide⟩ counts
  obtain ⟨populated, counts⟩ := Decimal.digits_append_inj ⟨',', by decide⟩ counts
  exact ⟨Decimal.digits_inj (List.append_cancel_right stride), slots,
    Decimal.digits_inj (List.append_cancel_right counts), populated, behind⟩

/-- Whether octets were left out can be told from the line in front of the records. -/
theorem leftoverLines_inj {leftover leftover' : Option Leftover}
    (same : leftoverLines leftover ++ recordsRule :: rest =
      leftoverLines leftover' ++ recordsRule :: more) :
    leftover = leftover' ∧ rest = more := by
  -- A rule begins with a dash, the line about octets left out does not.
  have rule : ∀ text : List Char, recordsRule ≠ "Trailing: ".toList ++ text := by
    intro text same
    exact absurd (List.cons.inj same).1 (by decide)
  cases leftover with
  | none =>
    cases leftover' with
    | none => exact ⟨rfl, (List.cons.inj same).2⟩
    | some after =>
      simp only [leftoverLines, List.nil_append, List.cons_append, List.append_assoc] at same
      exact absurd (List.cons.inj same).1 (rule _)
  | some before =>
    cases leftover' with
    | none =>
      simp only [leftoverLines, List.nil_append, List.cons_append, List.append_assoc] at same
      exact absurd (List.cons.inj same).1.symm (rule _)
    | some after =>
      simp only [leftoverLines, List.cons_append, List.nil_append, List.cons.injEq,
        List.append_assoc, List.append_cancel_left_eq] at same
      obtain ⟨line, -, behind⟩ := same
      obtain ⟨lengths, line⟩ := Decimal.digits_append_inj ⟨' ', by decide⟩ line
      have offsets := Decimal.digits_inj (List.append_cancel_right line)
      cases before
      cases after
      subst lengths offsets
      exact ⟨rfl, behind⟩

/-- A line about a record determines all of the record but its padding. -/
theorem recordLine_inj {r s : Record} (same : recordLine r = recordLine s) :
    r.trimmed = s.trimmed := by
  simp only [recordLine, List.cons_append, List.cons.injEq, true_and, List.append_assoc] at same
  obtain ⟨offset, same⟩ := Decimal.column_append_inj ⟨']', by decide⟩ same
  obtain ⟨id, same⟩ := Decimal.digits_append_inj ⟨':', by decide⟩ same
  simp only [Record.trimmed, Record.mk.injEq]
  exact ⟨offset, UInt32.toNat.inj id, Escaped.encode_inj same⟩

example : recordLine { offset := 128, id := 7, text := [0x41, 0x0A, 0x5B, 0x5C, 0, 0x42] } =
    "[     128] #7: A\\x0A[\\\\".toList := by decide

theorem map_recordLine_inj {records records' : List Record}
    (same : records.map recordLine = records'.map recordLine) :
    records.map Record.trimmed = records'.map Record.trimmed := by
  induction records generalizing records' with
  | nil => rw [List.map_eq_nil_iff.mp same.symm]
  | cons r records ih =>
    obtain ⟨s, others, rfl, line, lines⟩ := List.map_eq_cons_iff.mp same.symm
    rw [List.map_cons, List.map_cons, recordLine_inj line.symm, ih lines.symm]

/-- Headers that look alike are written alike. -/
theorem SameHeader.headerLines_eq {header header' : Option Header}
    (alike : SameHeader header header') (stride : Nat) :
    headerLines stride header = headerLines stride header' := by
  cases alike with
  | missing => rfl
  | blank hBlank kBlank => rw [headerLines_of_blank hBlank, headerLines_of_blank kBlank]
  | words => rfl

end Read

end Listing

namespace Journal

/-- Every line of the listing is printable. -/
theorem all_isPrintable_detailLines (journal : Journal) :
    ∀ line ∈ journal.detailLines, line.all isPrintable = true := by
  intro line member
  simp only [detailLines, List.mem_append, List.mem_cons, List.mem_map] at member
  rcases member with (((rfl | header) | rfl | summary) | leftover) | rfl | ⟨r, _, rfl⟩
  · decide
  · exact Listing.all_isPrintable_headerLines _ _ line header
  · decide
  · exact Listing.all_isPrintable_summaryLines journal line summary
  · exact Listing.all_isPrintable_leftoverLines _ line leftover
  · decide
  · exact Listing.all_isPrintable_recordLine r

/-- Cutting the listing at line feeds gives its lines. -/
theorem splitOn_details (journal : Journal) :
    journal.details.flatten.splitOn 0x0A = journal.detailLines.map Utf8.encode ++ [[]] := by
  have written : journal.details.flatten =
      (journal.detailLines.map Utf8.encode).flatMap (· ++ [0x0A]) := by
    rw [details, ← List.flatMap_def, List.flatMap_map]
    simp only [Utf8.encode_append]
    rfl
  rw [written]
  refine splitOn_lines _ fun octets member => ?_
  obtain ⟨line, shown, rfl⟩ := List.mem_map.mp member
  exact Utf8.lineFeed_notMem_encode (journal.all_isPrintable_detailLines line shown)

variable {j k : Journal}

theorem detailLines_eq_of_details (same : j.details.flatten = k.details.flatten) :
    j.detailLines = k.detailLines := by
  have lines := congrArg (List.splitOn 0x0A) same
  rw [splitOn_details, splitOn_details] at lines
  exact List.map_inj_right (fun _ _ => Utf8.encode_inj) |>.mp (List.append_cancel_right lines)

/-- Equal lines come from journals that agree in all that the lines show. -/
theorem agree_of_detailLines (same : j.detailLines = k.detailLines) :
    j.stride = k.stride ∧ j.slots = k.slots ∧ j.emptySlots = k.emptySlots ∧
      j.leftover = k.leftover ∧ j.records.length = k.records.length ∧
      j.records.map Record.trimmed = k.records.map Record.trimmed ∧
      Listing.SameHeader j.header k.header := by
  simp only [detailLines, List.cons_append, List.append_assoc, List.cons.injEq, true_and] at same
  obtain ⟨header, summary⟩ := Listing.sameHeader_of_headerLines same
  obtain ⟨stride, slots, emptySlots, count, behind⟩ := Listing.summaryLines_inj summary
  obtain ⟨leftover, records⟩ := Listing.leftoverLines_inj behind
  exact ⟨stride, slots, emptySlots, leftover, count, Listing.map_recordLine_inj records, header⟩

/-- Two journals have the same listing exactly if they agree in their counts, in the octets left
out, in every record apart from its padding, and in a header that is missing, blank, or of the same
words. Whatever was logged, every record takes one line. -/
theorem details_eq_iff (j k : Journal) :
    (j.details.flatten = k.details.flatten ↔
      j.stride = k.stride ∧ j.slots = k.slots ∧ j.emptySlots = k.emptySlots ∧
        j.leftover = k.leftover ∧ j.records.length = k.records.length ∧
        j.records.map Record.trimmed = k.records.map Record.trimmed ∧
        Listing.SameHeader j.header k.header) ∧
    ∃ front, j.details.flatten.splitOn 0x0A =
      front ++ Utf8.encode Listing.recordsRule ::
        (j.records.map fun r => Utf8.encode (Listing.recordLine r)) ++ [[]] := by
  refine ⟨⟨fun same => agree_of_detailLines (detailLines_eq_of_details same), ?_⟩, ?_⟩
  · rintro ⟨stride, slots, emptySlots, leftover, -, records, header⟩
    obtain ⟨rest, hj, hk⟩ := details_eq_of_trimmed records stride slots emptySlots leftover
    have block : j.headerBlock = k.headerBlock := by
      rw [headerBlock, headerBlock, header.headerLines_eq, stride]
    rw [hj, hk, block]
  · refine ⟨(Listing.headerRule :: Listing.headerLines j.stride j.header ++
      Listing.summaryRule :: Listing.summaryLines j ++
      Listing.leftoverLines j.leftover).map Utf8.encode, ?_⟩
    simp only [splitOn_details, detailLines, List.map_append, List.map_cons, List.map_map,
      Function.comp_def]

end Journal

end RamLog
