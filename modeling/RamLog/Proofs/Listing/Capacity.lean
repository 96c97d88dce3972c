import RamLog.Listing.Writing
import RamLog.Proofs.Listing.Faithful

/-!
# Listings without enough room

Two calls do what one call with the octets of both does, whether there is room or not
(`Writing.call_append`). So a program of calls, with its loops and branches, comes down to one call,
and it does not matter in which line, section or record the room ends: writing a listing is one call
with the listing (`Journal.writeVerbatim_eq`, `Journal.writeDetails_eq`). A buffer takes it whole, or
as much of it as there is room for (`Journal.write_buffer`).
-/
namespace RamLog

open Text

namespace Writing

section Call

variable {fault : WriteFault} {room : Nat} {written octets : Bytes}

theorem call_unlimited (octets : Bytes) :
    call octets ⟨.unlimited, written⟩ = .ok () ⟨.unlimited, written ++ octets⟩ := rfl

theorem call_of_le (fits : octets.length ≤ room) :
    call octets ⟨.limited room fault, written⟩ =
      .ok () ⟨.limited (room - octets.length) fault, written ++ octets⟩ := if_pos fits

theorem call_of_lt (short : room < octets.length) :
    call octets ⟨.limited room fault, written⟩ =
      .error fault ⟨.limited 0 fault, written ++ octets.take room⟩ :=
  if_neg (Nat.not_le_of_lt short)

end Call

section Sequence

variable {first rest : Writing Unit} {before after : Port}

theorem bind_of_ok (done : first before = .ok () after) :
    (first >>= fun _ => rest) before = rest after := by
  show EStateM.bind first _ before = rest after
  rw [EStateM.bind, done]

/-- Behind a call that fails, nothing is called. -/
theorem bind_of_error {fault : WriteFault} (failed : first before = .error fault after) :
    (first >>= fun _ => rest) before = .error fault after := by
  show EStateM.bind first _ before = .error fault after
  rw [EStateM.bind, failed]

end Sequence

theorem call_nil : call [] = pure () := by
  funext ⟨sink, written⟩
  cases sink with
  | unlimited =>
    rw [call_unlimited, List.append_nil]
    rfl
  | limited room fault =>
    rw [call_of_le (Nat.zero_le room), List.append_nil]
    rfl

/-- Two calls do what one call with all the octets does. -/
theorem call_append (a b : Bytes) : (do call a; call b) = call (a ++ b) := by
  funext ⟨sink, written⟩
  cases sink with
  | unlimited =>
    rw [bind_of_ok (call_unlimited a), call_unlimited, call_unlimited, List.append_assoc]
  | limited room fault =>
    by_cases fitsA : a.length ≤ room
    · rw [bind_of_ok (call_of_le fitsA)]
      by_cases fitsB : b.length ≤ room - a.length
      · have fits : (a ++ b).length ≤ room := by
          rw [List.length_append]
          omega
        rw [call_of_le fitsB, call_of_le fits, List.length_append, Nat.sub_sub, List.append_assoc]
      · have short : room < (a ++ b).length := by
          rw [List.length_append]
          omega
        rw [call_of_lt (Nat.lt_of_not_le fitsB), call_of_lt short, List.take_append,
          List.take_of_length_le fitsA, List.append_assoc]
    · have shortA : room < a.length := Nat.lt_of_not_le fitsA
      have short : room < (a ++ b).length := by
        rw [List.length_append]
        omega
      rw [bind_of_error (call_of_lt shortA), call_of_lt short,
        List.take_append_of_le_length (Nat.le_of_lt shortA)]

/-- A loop of calls does what one call with all their octets does. -/
theorem forM_call {α : Type} {body : α → Writing Unit} {octets : α → Bytes}
    (each : ∀ a, body a = call (octets a)) (items : List α) :
    items.forM body = call (items.flatMap octets) := by
  induction items with
  | nil => exact call_nil.symm
  | cons a items ih =>
    have turn : (a :: items).forM body = (do body a; items.forM body) := rfl
    rw [turn, each, ih, call_append, List.flatMap_cons]

theorem line_eq (text : List Char) : line text = call (Utf8.encode (text ++ ['\n'])) := by
  rw [line, call_append, Utf8.encode_append]
  rfl

/-- What one call leaves at a sink with so much room. -/
theorem deliver_call (octets : Bytes) (room : Nat) (fault : WriteFault) :
    (call octets).deliver (.limited room fault) =
      if octets.length ≤ room then ⟨octets, none⟩ else ⟨octets.take room, some fault⟩ := by
  by_cases fits : octets.length ≤ room
  · rw [if_pos fits, deliver, EStateM.run, call_of_le fits, List.nil_append]
  · rw [if_neg fits, deliver, EStateM.run, call_of_lt (Nat.lt_of_not_le fits), List.nil_append]

end Writing

open Writing

theorem Record.writeVerbatim_eq (r : Record) : r.writeVerbatim = call r.verbatim.flatten := by
  simp only [Record.writeVerbatim, call_append, Record.verbatim, Utf8.encode_append,
    List.flatten_cons, List.flatten_nil, List.append_assoc, List.append_nil]

/-- Writing the verbatim listing is one call with the listing. -/
theorem Journal.writeVerbatim_eq (journal : Journal) :
    journal.writeVerbatim = call journal.verbatim.flatten := by
  rw [Journal.writeVerbatim, forM_call Record.writeVerbatim_eq, Journal.verbatim,
    List.flatMap_def, List.flatMap_def, List.flatten_flatten, List.map_map]
  rfl

namespace Listing

def octets (lines : List (List Char)) : Bytes :=
  lines.flatMap fun text => Utf8.encode (text ++ ['\n'])

theorem writeHeader_eq (stride : Nat) (header : Option Header) :
    writeHeader stride header = call (octets (headerLines stride header)) := by
  unfold octets
  cases header with
  | none => rw [writeHeader, headerLines, line_eq, List.flatMap_singleton]
  | some h =>
    by_cases blank : h.isBlank = true
    · rw [headerLines_of_blank blank, writeHeader, if_pos blank]
      simp only [line_eq, bind_pure_unit, List.flatMap_singleton]
    · rw [headerLines_of_words blank, writeHeader, if_neg blank]
      cases h.nextSlot? stride with
      | none =>
        simp only [line_eq, call_append, List.flatMap_cons, List.flatMap_nil, List.append_nil]
      | some slot =>
        simp only [line_eq, call_append, List.flatMap_cons, List.flatMap_nil, List.append_nil]

theorem writeSummary_eq (journal : Journal) :
    writeSummary journal =
      call (octets (summaryLines journal ++ leftoverLines journal.leftover)) := by
  unfold octets
  rw [writeSummary]
  cases journal.leftover with
  | none =>
    simp only [line_eq, call_append, bind_pure_unit, summaryLines, leftoverLines, List.flatMap_cons,
      List.flatMap_nil, List.append_nil]
  | some rest =>
    simp only [line_eq, call_append, summaryLines, leftoverLines, List.flatMap_append,
      List.flatMap_cons, List.flatMap_nil, List.append_assoc, List.append_nil]

end Listing

/-- Writing the detailed listing is one call with the listing. -/
theorem Journal.writeDetails_eq (journal : Journal) :
    journal.writeDetails = call journal.details.flatten := by
  have records : (journal.records.forM fun r => line (Listing.recordLine r)) =
      call (Listing.octets (journal.records.map Listing.recordLine)) := by
    rw [Listing.octets, List.flatMap_map]
    exact forM_call (fun r => line_eq _) _
  rw [writeDetails, records, details, ← List.flatMap_def]
  simp only [line_eq, call_append, Listing.writeHeader_eq, Listing.writeSummary_eq, Listing.octets,
    detailLines, List.flatMap_cons, List.flatMap_append, List.append_assoc, List.cons_append]

/-- Pieces leave at a sink with so much room what all their octets in one piece would. -/
theorem Sink.writeWithin_eq (fault : WriteFault) (room : Nat) (pieces : List Bytes) :
    writeWithin fault room pieces =
      if pieces.flatten.length ≤ room then ⟨pieces.flatten, none⟩
      else ⟨pieces.flatten.take room, some fault⟩ := by
  induction pieces generalizing room with
  | nil => rfl
  | cons piece rest ih =>
    rw [writeWithin, ih, List.flatten_cons, List.length_append]
    by_cases fits : piece.length ≤ room
    · by_cases more : rest.flatten.length ≤ room - piece.length
      · rw [if_pos fits, if_pos more, if_pos (by omega)]
      · rw [if_pos fits, if_neg more, if_neg (by omega), List.take_append,
          List.take_of_length_le fits]
    · rw [if_neg fits, if_neg (by omega), List.take_append_of_le_length (by omega)]

/-- Either listing, written call by call or piece by piece into a buffer, arrives whole if it fits,
and otherwise the writing ends with the fault of a full buffer, which then holds as much of the
listing as it has room for. -/
theorem Journal.write_buffer (journal : Journal) (capacity : Nat) :
    let kept (whole : Bytes) : Delivery :=
      if whole.length ≤ capacity then ⟨whole, none⟩ else ⟨whole.take capacity, some .bufferFull⟩
    (∃ whole, journal.writeVerbatim.deliver .unlimited = ⟨whole, none⟩ ∧
      journal.writeVerbatim.deliver (.buffer capacity) = kept whole ∧
      Sink.unlimited.write journal.verbatim = ⟨whole, none⟩ ∧
      (Sink.buffer capacity).write journal.verbatim = kept whole) ∧
    (∃ whole, journal.writeDetails.deliver .unlimited = ⟨whole, none⟩ ∧
      journal.writeDetails.deliver (.buffer capacity) = kept whole ∧
      Sink.unlimited.write journal.details = ⟨whole, none⟩ ∧
      (Sink.buffer capacity).write journal.details = kept whole) ∧
    WriteFault.bufferFull.message = "failed to write whole buffer" := by
  intro kept
  refine ⟨⟨journal.verbatim.flatten, ?_, ?_, rfl, ?_⟩, ⟨journal.details.flatten, ?_, ?_, rfl, ?_⟩, rfl⟩
  · rw [writeVerbatim_eq]
    rfl
  · rw [writeVerbatim_eq, Sink.buffer, deliver_call]
  · exact Sink.writeWithin_eq _ _ _
  · rw [writeDetails_eq]
    rfl
  · rw [writeDetails_eq, Sink.buffer, deliver_call]
  · exact Sink.writeWithin_eq _ _ _

/-- The room ends behind the colon of an entry. -/
example : (Sink.buffer 3).write ({ records := [⟨128, 7, [0x68, 0x69]⟩] } : Journal).verbatim =
    ⟨[0x37, 0x20, 0x3A], some .bufferFull⟩ := by decide

end RamLog
