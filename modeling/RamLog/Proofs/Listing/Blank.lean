import RamLog.Proofs.Header
import RamLog.Proofs.Listing.Faithful
import RamLog.Proofs.Scan.Format

/-!
# Blank headers in the listing

Headers of words and headers of octets are the same thing, and the listing calls a header
uninitialised when its octets are those of wiped or of untouched memory (`header_octets`). It says so
on the line under the first rule and on no other: a line that begins with a parenthesis is about the
header (`mem_headerLines_of_parenthesis`).
-/
namespace RamLog

open Text

namespace Listing

def blankLine : List Char := "(uninitialised)".toList

/-- Only a line about the header begins with a parenthesis. -/
theorem mem_headerLines_of_parenthesis {journal : Journal} {line : List Char}
    (member : line ∈ journal.detailLines) (opening : line.head? = some '(') :
    line ∈ headerLines journal.stride journal.header := by
  simp only [Journal.detailLines, List.mem_append, List.mem_cons, List.mem_map] at member
  rcases member with (((rfl | header) | rfl | summary) | leftover) | rfl | ⟨r, _, rfl⟩
  · exact absurd opening (by decide)
  · exact header
  · exact absurd opening (by decide)
  · simp only [summaryLines, List.mem_cons, List.not_mem_nil, or_false] at summary
    rcases summary with rfl | rfl
    · cases opening
    · cases opening
  · cases found : journal.leftover with
    | none =>
      rw [found] at leftover
      contradiction
    | some rest =>
      rw [found, leftoverLines, List.mem_singleton] at leftover
      subst leftover
      cases opening
  · exact absurd opening (by decide)
  · cases opening

/-- The lines about a header of other words do not call it blank. -/
theorem blankLine_notMem_headerLines {stride : Nat} {h : Header} (words : ¬ h.isBlank = true) :
    blankLine ∉ headerLines stride (some h) := by
  rw [headerLines_of_words words]
  intro member
  simp only [List.mem_cons, List.not_mem_nil, or_false] at member
  have opening : blankLine.head? = some '(' := rfl
  rcases member with same | same | same | same | same <;> rw [same] at opening <;> cases opening

end Listing

namespace Journal

variable {journal : Journal} {h : Header}

theorem mem_lines_iff {line : List Char} (shown : line ≠ []) :
    Utf8.encode line ∈ journal.details.flatten.splitOn 0x0A ↔ line ∈ journal.detailLines := by
  have octets : Utf8.encode line ≠ [] := by
    obtain ⟨c, text, rfl⟩ := List.exists_cons_of_ne_nil shown
    exact Utf8.encode_cons_ne_nil c text
  rw [splitOn_details, List.mem_append, List.mem_singleton, or_iff_left octets, List.mem_map]
  constructor
  · rintro ⟨other, member, same⟩
    exact Utf8.encode_inj same ▸ member
  · exact fun member => ⟨line, member, rfl⟩

/-- A header is called blank where it is. -/
theorem blankLine_mem_iff (header : journal.header = some h) :
    Utf8.encode Listing.blankLine ∈ journal.details.flatten.splitOn 0x0A ↔ h.isBlank = true := by
  rw [mem_lines_iff (by decide)]
  constructor
  · intro member
    by_contra words
    have about := Listing.mem_headerLines_of_parenthesis member rfl
    rw [header] at about
    exact Listing.blankLine_notMem_headerLines words about
  · intro blank
    have about : Listing.blankLine ∈ Listing.headerLines journal.stride journal.header := by
      rw [header, Listing.headerLines_of_blank blank]
      exact List.mem_singleton_self _
    simp only [detailLines, List.mem_append, List.mem_cons]
    exact .inl (.inl (.inl (.inr about)))

/-- The line about a blank header is the second. -/
theorem line_second_iff (header : journal.header = some h) :
    (journal.details.flatten.splitOn 0x0A)[1]? = some (Utf8.encode Listing.blankLine) ↔
      h.isBlank = true := by
  constructor
  · intro second
    exact (blankLine_mem_iff header).mp (List.mem_of_getElem? second)
  · intro blank
    rw [splitOn_details, detailLines, header, Listing.headerLines_of_blank blank]
    rfl

end Journal

/-- The header that a scan gives is that of the first twenty octets. -/
theorem Scan.decode_of_result {settings : Settings} {data : Bytes} {journal : Journal} {h : Header}
    (scanned : (scan settings data).result = .ok journal) (header : journal.header = some h) :
    Header.decode (data.take 20) = .ok h := by
  obtain ⟨_, rfl⟩ := eq_ofDump_of_result scanned
  have found := headerOf_header? settings.stride data
  have same : Scan.header? settings.stride data = some h := header
  rw [same] at found
  cases found with
  | decoded _ decoded => exact decoded

/-- Octets that begin with twenty of wiped or of untouched memory. -/
def Dump.BeginsBlank (data : Bytes) : Prop :=
  data.take 20 = List.replicate 20 0xFF ∨ data.take 20 = List.replicate 20 0

theorem Header.isBlank_iff_beginsBlank {h : Header} {data : Bytes}
    (octets : h.encode = data.take 20) : h.isBlank = true ↔ Dump.BeginsBlank data := by
  rw [isBlank_iff, octets]
  rfl

/-- Headers of words and headers of octets are the same thing. Reading fails on fewer than twenty
octets and on nothing else; a header that is read is written with its twenty octets, and one that is
written is read back in front of any others. It is blank exactly if the octets are all set or all zero,
and of every dump with a header, the listing says so on its second line, or on none. -/
theorem header_octets :
    (∀ (data : Bytes) (fault : Fault), Header.decode data = .error fault ↔
      data.length < 20 ∧ fault = .shortHeader data.length 20) ∧
    (∀ data : Bytes, 20 ≤ data.length → ∃ h, Header.decode data = .ok h ∧
      h.encode = data.take 20 ∧ (h.isBlank = true ↔ Dump.BeginsBlank data)) ∧
    (∀ (h : Header) (rest : Bytes), Header.decode (h.encode ++ rest) = .ok h) ∧
    (∀ settings data journal h,
      (scan settings data).result = .ok journal → journal.header = some h →
        ((journal.details.flatten.splitOn 0x0A)[1]? =
          some (Utf8.encode "(uninitialised)".toList) ↔ Dump.BeginsBlank data) ∧
        (Utf8.encode "(uninitialised)".toList ∈ journal.details.flatten.splitOn 0x0A ↔
          Dump.BeginsBlank data)) := by
  refine ⟨Header.decode_eq_error_iff, ?_, Header.decode_encode_append, ?_⟩
  · intro data enough
    have long : ¬ data.length < Header.length := Nat.not_lt.mpr enough
    have read : ∃ h, Header.decode data = .ok h := ⟨_, by rw [Header.decode, if_neg long]⟩
    obtain ⟨h, decoded⟩ := read
    have octets : h.encode = data.take 20 := Header.encode_of_decode decoded
    exact ⟨h, decoded, octets, Header.isBlank_iff_beginsBlank octets⟩
  · intro settings data journal h scanned header
    have decoded := Scan.decode_of_result scanned header
    have octets : h.encode = data.take 20 := by
      rw [Header.encode_of_decode decoded, List.take_take]
      rfl
    rw [← Header.isBlank_iff_beginsBlank octets]
    exact ⟨Journal.line_second_iff header, Journal.blankLine_mem_iff header⟩

/-- A message of twenty octets behind a wiped header. -/
def Dump.wiped : Bytes := List.replicate 20 0xFF ++ [0, 0, 0, 1, 0x41] ++ List.replicate 15 0

def Journal.wiped : Journal where
  header := some ⟨0xFFFFFFFF, 0xFFFFFFFF, 0xFFFFFFFF, 0xFFFFFFFF, 0xFFFFFFFF⟩
  records := [⟨20, 1, 0x41 :: List.replicate 15 0⟩]
  stride := 20
  slots := 1

theorem header_octets_wiped :
    20 ≤ Dump.wiped.length ∧
      (∃ h, Header.decode Dump.wiped = .ok h ∧ h.encode = Dump.wiped.take 20) ∧
      (scan { stride := 20 } Dump.wiped).result = .ok Journal.wiped ∧
      Journal.wiped.header = some ⟨0xFFFFFFFF, 0xFFFFFFFF, 0xFFFFFFFF, 0xFFFFFFFF, 0xFFFFFFFF⟩ ∧
      (Journal.wiped.details.flatten.splitOn 0x0A)[1]? =
        some (Utf8.encode "(uninitialised)".toList) := by
  have enough : 20 ≤ Dump.wiped.length := by decide
  have scanned : (scan { stride := 20 } Dump.wiped).result = .ok Journal.wiped := rfl
  obtain ⟨_, read, _, listed⟩ := header_octets
  obtain ⟨h, decoded, octets, _⟩ := read Dump.wiped enough
  obtain ⟨second, _⟩ := listed { stride := 20 } Dump.wiped Journal.wiped _ scanned rfl
  exact ⟨enough, ⟨h, decoded, octets⟩, scanned, rfl, second.mpr (.inl rfl)⟩

end RamLog
