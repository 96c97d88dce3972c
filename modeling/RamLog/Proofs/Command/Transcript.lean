import RamLog.Command.Log
import RamLog.Proofs.Text.Numerals

/-!
# Standard error without the log

Entries about the events of a scan take one line each, so they leave nothing behind when standard
error is read line by line (`rest_append_events`). The entry about a journal quotes the name of the
file: what follows its first line feed is left behind (`rest_entry`), and a name without line feeds
leaves nothing (`further_ofJournal`). A message is left as it is (`rest_chars`).
-/
namespace RamLog.Command

open Text

namespace Mark

def ofEntry (e : LogEntry) : List Mark := .heading e.heading :: e.text.map .char

theorem lines_append (front back : List Mark) (line : .char '\n' ∉ front) :
    lines (front ++ .char '\n' :: back) = (front ++ [.char '\n']) :: lines back := by
  induction front with
  | nil => rfl
  | cons m front ih =>
    rw [List.mem_cons, not_or] at line
    rw [List.cons_append, lines, if_neg (Ne.symm line.1), ih line.2]
    rfl

theorem lines_single (m : Mark) (marks : List Mark) (line : .char '\n' ∉ m :: marks) :
    lines (m :: marks) = [m :: marks] := by
  induction marks generalizing m with
  | nil =>
    rw [List.mem_singleton] at line
    rw [lines, if_neg (Ne.symm line)]
    rfl
  | cons n marks ih =>
    rw [List.mem_cons, not_or] at line
    rw [lines, if_neg (Ne.symm line.1), ih n line.2]

theorem mem_of_mem_lines {marks line : List Mark} {m : Mark} (member : line ∈ lines marks)
    (inside : m ∈ line) : m ∈ marks := by
  rw [← flatten_lines marks]
  exact List.mem_flatten.mpr ⟨line, member, inside⟩

end Mark

namespace Transcript

theorem rest_append_line (given : Heading) (first : List Char) (back : List Mark)
    (line : '\n' ∉ first) :
    (ofMarks (.heading given :: first.map .char ++ .char '\n' :: back)).rest = (ofMarks back).rest := by
  have whole : Mark.char '\n' ∉ .heading given :: first.map .char := by
    simpa using line
  rw [ofMarks, Mark.lines_append _ _ whole]
  rfl

/-- Without headings, nothing belongs to the log. -/
theorem rest_chars (text : List Char) : (ofMarks (text.map .char)).rest = text := by
  have none : ∀ line ∈ Mark.lines (text.map .char), LogLine.ofMarks? line = none := by
    intro line member
    cases line with
    | nil => rfl
    | cons m line =>
      have inText := Mark.mem_of_mem_lines member (List.mem_cons_self ..)
      obtain ⟨c, _, rfl⟩ := List.mem_map.mp inText
      rfl
  have all : (Mark.lines (text.map .char)).filter (LogLine.ofMarks? · = Option.none) =
      Mark.lines (text.map .char) := by
    rw [List.filter_eq_self]
    exact fun line member => decide_eq_true (none line member)
  show ((Mark.lines (text.map .char)).filter (LogLine.ofMarks? · = Option.none)).flatten.flatMap
    Mark.written = text
  rw [all, Mark.flatten_lines, List.flatMap_map]
  exact List.flatMap_singleton' text

end Transcript

namespace LogEntry

/-- What an entry holds after its first line feed. -/
def further (e : LogEntry) : List Char := (e.text.dropWhile (· ≠ '\n')).drop 1

def IsLine (e : LogEntry) : Prop := ∃ line, '\n' ∉ line ∧ e.text = line ++ ['\n']

/-- What is left of a message that stands behind an entry. -/
def leaves (e : LogEntry) (message : List Char) : List Char :=
  if '\n' ∈ e.text then e.further ++ message else (message.dropWhile (· ≠ '\n')).drop 1

theorem dropWhile_of_not_mem {first : List Char} (back : List Char) (line : '\n' ∉ first) :
    (first ++ back).dropWhile (· ≠ '\n') = back.dropWhile (· ≠ '\n') := by
  apply List.dropWhile_append_of_pos
  intro c member
  apply decide_eq_true
  rintro rfl
  exact line member

theorem further_of_eq_append {e : LogEntry} {first more : List Char} (line : '\n' ∉ first)
    (text : e.text = first ++ '\n' :: more) : e.further = more := by
  unfold further
  rw [text, dropWhile_of_not_mem _ line, List.dropWhile_cons_of_neg (by decide)]
  rfl

theorem further_of_not_mem {e : LogEntry} (line : '\n' ∉ e.text) : e.further = [] := by
  unfold further
  rw [← List.append_nil e.text, dropWhile_of_not_mem _ line]
  rfl

theorem leaves_nil (e : LogEntry) : e.leaves [] = e.further := by
  unfold leaves
  split
  next => exact List.append_nil _
  next whole => exact (further_of_not_mem whole).symm

end LogEntry

namespace Transcript

/-- An entry at the end of the log leaves what follows its first line. -/
theorem rest_entry (e : LogEntry) : (ofMarks (Mark.ofEntry e)).rest = e.further := by
  by_cases feed : '\n' ∈ e.text
  · obtain ⟨first, more, text, line⟩ := List.eq_append_cons_of_mem feed
    rw [LogEntry.further_of_eq_append line text, Mark.ofEntry, text, List.map_append, List.map_cons,
      ← List.cons_append, rest_append_line _ _ _ line, rest_chars]
  · have whole : Mark.char '\n' ∉ Mark.ofEntry e := by
      simpa [Mark.ofEntry] using feed
    rw [LogEntry.further_of_not_mem feed, ofMarks, Mark.ofEntry, Mark.lines_single _ _ whole]
    rfl

/-- A message behind an entry is left after the further lines of the entry. If no line feed ends
the entry, the first line of the message belongs to it. -/
theorem rest_entry_append (e : LogEntry) (message : List Char) :
    (ofMarks (Mark.ofEntry e ++ message.map .char)).rest = e.leaves message := by
  unfold LogEntry.leaves
  by_cases feed : '\n' ∈ e.text
  · obtain ⟨first, more, text, line⟩ := List.eq_append_cons_of_mem feed
    rw [if_pos feed, LogEntry.further_of_eq_append line text, Mark.ofEntry, text, List.map_append,
      List.map_cons, List.cons_append, List.append_assoc, List.cons_append, ← List.map_append,
      ← List.cons_append, rest_append_line _ _ _ line, rest_chars]
  · have joined : Mark.ofEntry e ++ message.map .char = Mark.ofEntry { e with text := e.text ++ message } := by
      rw [Mark.ofEntry, Mark.ofEntry, List.map_append, List.cons_append]
    rw [if_neg feed, joined, rest_entry]
    unfold LogEntry.further
    rw [LogEntry.dropWhile_of_not_mem message feed]

/-- Entries of one line in front of anything leave nothing. -/
theorem rest_append_entries (entries : List LogEntry) (back : List Mark)
    (single : ∀ e ∈ entries, e.IsLine) :
    (ofMarks (entries.flatMap Mark.ofEntry ++ back)).rest = (ofMarks back).rest := by
  induction entries with
  | nil => rfl
  | cons e entries ih =>
    obtain ⟨line, noFeed, text⟩ := single e (List.mem_cons_self ..)
    have later := ih fun d member => single d (List.mem_cons_of_mem _ member)
    rw [List.flatMap_cons, List.append_assoc, Mark.ofEntry, text, List.map_append, List.map_cons,
      List.map_nil, ← List.cons_append, List.append_assoc, List.singleton_append,
      rest_append_line _ _ _ noFeed, later]

end Transcript

theorem keeps_of_isPrintable {c : Char} (printable : isPrintable c = true) :
    Plain.Mode.outside.keeps c = true := by
  rw [isPrintable_eq_true_iff] at printable
  have inside : 0x20 ≤ c.toNat ∧ c.toNat ≠ 0x7F := by omega
  simp [Plain.Mode.keeps, inside]

theorem all_isPrintable_number (n : Nat) : (toString n).toList.all isPrintable = true := by
  rw [Nat.toString_eq_repr, Nat.toList_repr]
  exact Decimal.all_isPrintable_digits n

theorem all_isPrintable_message (ev : Event) : ev.message.toList.all isPrintable = true := by
  cases ev with
  | emptySlot offset =>
    unfold Event.message
    simp only [String.toList_append, List.all_append, all_isPrintable_number]
    decide
  | ignored offset length stride =>
    unfold Event.message
    simp only [String.toList_append, List.all_append, all_isPrintable_number]
    decide
  | scanned slots populated empty =>
    unfold Event.message
    simp only [String.toList_append, List.all_append, all_isPrintable_number]
    decide

namespace LogEntry

theorem indent_eq_self (message : List Char) (line : '\n' ∉ message) : indent message = message := by
  induction message with
  | nil => rfl
  | cons c message ih =>
    rw [List.mem_cons, not_or] at line
    have later : indent message = message := ih line.2
    unfold indent at later ⊢
    rw [List.flatMap_cons, if_neg (Ne.symm line.1), later]
    rfl

/-- A message of kept characters without line feeds makes an entry of one line. -/
theorem isLine_of (heading : Heading) {message : List Char} (line : '\n' ∉ message)
    (kept : ∀ c ∈ message, Plain.Mode.outside.keeps c = true) : (of heading message).IsLine := by
  refine ⟨message, line, ?_⟩
  rw [of, indent_eq_self _ line]
  apply Plain.strip_eq_self
  intro c member
  rw [List.mem_append, List.mem_singleton] at member
  cases member with
  | inl inside => exact kept c inside
  | inr feed =>
    rw [feed]
    rfl

theorem isLine_ofEvent (ev : Event) : (ofEvent ev).IsLine := by
  have printable := all_isPrintable_message ev
  exact isLine_of _ (lineFeed_notMem printable) fun c inside =>
    keeps_of_isPrintable (List.all_eq_true.mp printable c inside)

theorem leaves_of_isLine {e : LogEntry} (single : e.IsLine) (message : List Char) :
    e.leaves message = message := by
  obtain ⟨first, line, text⟩ := single
  have feed : '\n' ∈ e.text := by simp [text]
  rw [leaves, if_pos feed, further_of_eq_append line text, List.nil_append]

end LogEntry

theorem stripFrom_sublist (mode : Plain.Mode) (plainly : Bool) (text : List Char) :
    (Plain.stripFrom mode plainly text).Sublist text := by
  induction text generalizing mode plainly with
  | nil => exact List.Sublist.refl _
  | cons c rest ih =>
    unfold Plain.stripFrom
    split
    · exact (ih ..).cons_cons c
    · split
      · exact (ih ..).cons_cons c
      · exact (ih ..).cons c

namespace LogEntry

/-- A message without line feeds leaves nothing after the first line of its entry. -/
theorem further_of (heading : Heading) (message : List Char) (line : '\n' ∉ message) :
    (of heading message).further = [] := by
  have written : (of heading message).text = Plain.strip (message ++ ['\n']) := by
    rw [of, indent_eq_self _ line]
  have sub : (of heading message).text.Sublist (message ++ ['\n']) := by
    rw [written]
    exact stripFrom_sublist .outside true _
  rw [List.sublist_append_iff] at sub
  obtain ⟨first, last, text, fromMessage, fromFeed⟩ := sub
  have noFeed : '\n' ∉ first := fun member => line (fromMessage.subset member)
  cases fromFeed with
  | cons _ nothing =>
    rw [List.sublist_nil.mp nothing, List.append_nil] at text
    exact further_of_not_mem (text ▸ noFeed)
  | cons_cons _ nothing =>
    rw [List.sublist_nil.mp nothing] at text
    exact further_of_eq_append noFeed text

theorem all_isPrintable_counts (journal : Journal) :
    (s!": {journal.records.length} records in {journal.slots} slots".toList.all isPrintable) = true := by
  simp only [String.toList_append, List.all_append, all_isPrintable_number]
  decide

theorem further_ofJournal (file : Bytes) (journal : Journal) (line : '\n' ∉ Utf8.lossy file) :
    (ofJournal file journal).further = [] := by
  apply further_of
  rw [List.mem_append, not_or]
  exact ⟨line, lineFeed_notMem (all_isPrintable_counts journal)⟩

/-- The entry about a file with a plain path is one line. -/
theorem isLine_ofJournal {file : Bytes} (journal : Journal)
    (plain : ∀ c ∈ Utf8.lossy file, c ≠ '\n' ∧ Plain.Mode.outside.keeps c = true) :
    (ofJournal file journal).IsLine := by
  have counts := all_isPrintable_counts journal
  apply isLine_of
  · rw [List.mem_append, not_or]
    exact ⟨fun feed => (plain '\n' feed).1 rfl, lineFeed_notMem counts⟩
  · intro c member
    rcases List.mem_append.mp member with inside | inside
    · exact (plain c inside).2
    · exact keeps_of_isPrintable (List.all_eq_true.mp counts c inside)

end LogEntry

end RamLog.Command
