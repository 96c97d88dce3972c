import RamLog.Csv.Writer
import RamLog.Listing.Details

/-!
# Padding is not shown

What lies behind the first NUL of a text has no part in the CSV text nor in the detailed listing.
Journals whose records agree without their padding (`Record.trimmed`) have the same CSV text
(`document_eq_of_trimmed`) and, if they agree in their counts too, listings that differ in the lines
about the header at most (`details_eq_of_trimmed`).
-/
namespace RamLog

open Text

namespace Text

/-- The octets behind a NUL are not looked at, whatever lies in front of it. -/
theorem beforeNul_append_zero (front back : Bytes) :
    beforeNul (front ++ 0 :: back) = beforeNul front := by
  induction front with
  | nil => simp [beforeNul]
  | cons b front ih => rw [List.cons_append, beforeNul_cons, beforeNul_cons, ih]

theorem beforeNul_beforeNul (bs : Bytes) : beforeNul (beforeNul bs) = beforeNul bs := by
  induction bs with
  | nil => rfl
  | cons b rest ih =>
    rw [beforeNul_cons]
    split
    · rfl
    next text => rw [beforeNul_cons, if_neg text, ih]

end Text

def Record.trimmed (r : Record) : Record := { r with text := beforeNul r.text }

/-- The lines that say which header a dump has, the rule above them included. -/
def Journal.headerBlock (journal : Journal) : List Bytes :=
  (Listing.headerRule :: Listing.headerLines journal.stride journal.header).map
    fun line => Utf8.encode (line ++ ['\n'])

theorem Csv.insides_trimmed (fileName : List Char) (r : Record) :
    insides fileName r.trimmed = insides fileName r := by
  simp only [insides, message, Record.trimmed, beforeNul_beforeNul]

theorem Listing.recordLine_trimmed (r : Record) : recordLine r.trimmed = recordLine r := by
  simp only [recordLine, Record.trimmed, beforeNul_beforeNul]

section Journals

variable {j k : Journal}

theorem Csv.document_eq_of_trimmed
    (same : j.records.map Record.trimmed = k.records.map Record.trimmed) (fileName : List Char) :
    document j fileName = document k fileName := by
  have trimmed : ∀ records : List Record, records.flatMap (fun r => row (insides fileName r)) =
      (records.map Record.trimmed).flatMap fun r => row (insides fileName r) := by
    intro records
    simp only [List.flatMap_map, insides_trimmed]
  rw [document, document, trimmed j.records, trimmed k.records, same]

theorem Journal.details_eq_of_trimmed
    (same : j.records.map Record.trimmed = k.records.map Record.trimmed)
    (stride : j.stride = k.stride) (slots : j.slots = k.slots)
    (emptySlots : j.emptySlots = k.emptySlots) (leftover : j.leftover = k.leftover) :
    ∃ rest, j.details = j.headerBlock ++ rest ∧ k.details = k.headerBlock ++ rest := by
  have trimmed : ∀ records : List Record, records.map Listing.recordLine =
      (records.map Record.trimmed).map Listing.recordLine := by
    intro records
    rw [List.map_map]
    exact List.map_congr_left fun r _ => (Listing.recordLine_trimmed r).symm
  have lines : j.records.map Listing.recordLine = k.records.map Listing.recordLine := by
    rw [trimmed j.records, trimmed k.records, same]
  have count : j.records.length = k.records.length := by
    simpa using congrArg List.length same
  have summary : Listing.summaryLines j = Listing.summaryLines k := by
    simp only [Listing.summaryLines, stride, slots, count, emptySlots]
  refine ⟨(Listing.summaryRule :: Listing.summaryLines k ++ Listing.leftoverLines k.leftover ++
    Listing.recordsRule :: k.records.map Listing.recordLine).map
      fun line => Utf8.encode (line ++ ['\n']), ?_, ?_⟩
  · simp only [details, detailLines, headerBlock, summary, leftover, lines, List.cons_append,
      List.append_assoc, List.map_cons, List.map_append]
  · simp only [details, detailLines, headerBlock, List.cons_append, List.append_assoc,
      List.map_cons, List.map_append]

end Journals

end RamLog
