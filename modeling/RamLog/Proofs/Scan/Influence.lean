import RamLog.Listing.Verbatim
import RamLog.Proofs.Dump.Slots
import RamLog.Proofs.Listing.Padding
import RamLog.Proofs.Scan.Account

/-!
# What a scan looks at

Dumps of one length that agree in every full slot, but for slots that are empty in both, are read
alike (`scan_ignores`): the header block, empty slots and octets left over have no influence but on
the header. If the slots agree in their ids and in their texts up to a NUL only, the CSV text and
the detailed listing still cannot tell the dumps apart. Two scans are compared in one place,
`alike_scan`, slot by slot and up to a function of the records that keeps their ids.
-/
namespace RamLog

open Text

namespace Dump

/-- Dumps of one length whose full slots are the same, in the sense given, or empty in both. -/
structure SameSlots (same : Bytes → Bytes → Prop) (stride : Nat) (x y : Bytes) : Prop where
  length_eq : x.length = y.length
  slots : ∀ number, 0 < number → (number + 1) * stride ≤ x.length →
    same (slot stride number x) (slot stride number y) ∨
      (slot stride number x)[4]? = some 0 ∧ (slot stride number y)[4]? = some 0

/-- Slots with the same id whose texts are the same up to a NUL, or to the end. -/
structure SameMessage (a b : Bytes) : Prop where
  id_eq : a.take 4 = b.take 4
  text : a.drop 4 = b.drop 4 ∨
    ∃ front x y, a.drop 4 = front ++ 0 :: x ∧ b.drop 4 = front ++ 0 :: y

/-- What is said of each full slot by itself is the same for dumps of one length, if it is the same
slot by slot. -/
theorem map_windows_congr {stride : Nat} {x y : Bytes} {α : Type} (f : Window → α)
    (positive : 0 < stride) (length : x.length = y.length)
    (each : ∀ number, 0 < number → (number + 1) * stride ≤ x.length →
      f ⟨number * stride, slot stride number x⟩ = f ⟨number * stride, slot stride number y⟩) :
    (windows stride x).map f = (windows stride y).map f := by
  have count : slotCount stride x = slotCount stride y := by
    rw [slotCount, slotCount, length]
  rw [windows_eq, windows_eq, ← count, List.map_map, List.map_map]
  apply List.map_congr_left
  intro i member
  exact each (i + 1) (Nat.succ_pos i) ((lt_slotCount_iff positive x i).mp (List.mem_range.mp member))

end Dump

/-- Dumps of one length that have the same records, up to `f`, and the same empty slots. -/
structure Dump.Comparable (f : Record → Record) (stride : Nat) (x y : Bytes) : Prop where
  length_eq : x.length = y.length
  isEmpty_eq : ∀ number, 0 < number → (number + 1) * stride ≤ x.length → ∀ offset,
    Window.isEmpty ⟨offset, slot stride number x⟩ = Window.isEmpty ⟨offset, slot stride number y⟩
  record?_eq : ∀ number, 0 < number → (number + 1) * stride ≤ x.length → ∀ offset,
    (Window.record? ⟨offset, slot stride number x⟩).map f =
      (Window.record? ⟨offset, slot stride number y⟩).map f

/-- Arranging records looks at their ids only. -/
theorem Order.map_arrange (order : Order) (f : Record → Record) (ids : ∀ r, (f r).id = r.id)
    (records : List Record) : (order.arrange records).map f = order.arrange (records.map f) := by
  cases order with
  | file => rfl
  | sequence =>
    apply List.map_mergeSort
    intro a _ b _
    rw [ids, ids]

namespace Dump.Comparable

variable {f : Record → Record} {stride : Nat} {x y : Bytes}

theorem records_eq (same : Comparable f stride x y) (positive : 0 < stride) :
    ((windows stride x).filterMap Window.record?).map f =
      ((windows stride y).filterMap Window.record?).map f := by
  have each := map_windows_congr (fun w => w.record?.map f) positive same.length_eq
    fun number some_number inside => same.record?_eq number some_number inside _
  have records := congrArg (List.filterMap id) each
  rw [List.filterMap_map, List.filterMap_map] at records
  rw [List.map_filterMap, List.map_filterMap]
  exact records

theorem emptyCount_eq (same : Comparable f stride x y) (positive : 0 < stride) :
    (windows stride x).countP Window.isEmpty = (windows stride y).countP Window.isEmpty := by
  have each := map_windows_congr Window.isEmpty positive same.length_eq
    fun number some_number inside => same.isEmpty_eq number some_number inside _
  have count := congrArg (List.countP id) each
  rw [List.countP_map, List.countP_map] at count
  exact count

theorem slotNotes_eq (same : Comparable f stride x y) (positive : 0 < stride) :
    Scan.slotNotes stride x = Scan.slotNotes stride y := by
  have each := map_windows_congr Window.notes positive same.length_eq
    fun number some_number inside => by
      rw [Window.notes, Window.notes, same.isEmpty_eq number some_number inside]
  rw [Scan.slotNotes, Scan.slotNotes, List.flatMap_def, List.flatMap_def, each]

theorem leftover?_eq (same : Comparable f stride x y) :
    leftover? stride x = leftover? stride y := by
  rw [leftover?, leftover?, slotCount, slotCount, same.length_eq]

end Dump.Comparable

/-- Journals of one account: the same records up to `f`, the same counts, the same left over. -/
structure Journal.Agree (f : Record → Record) (j k : Journal) : Prop where
  records : j.records.map f = k.records.map f
  stride : j.stride = k.stride
  slots : j.slots = k.slots
  emptySlots : j.emptySlots = k.emptySlots
  leftover : j.leftover = k.leftover

theorem Journal.Agree.ofDump {settings : Settings} {f : Record → Record}
    (ids : ∀ r, (f r).id = r.id) {x y : Bytes} (positive : 0 < settings.stride)
    (same : Dump.Comparable f settings.stride x y) :
    Agree f (.ofDump settings x) (.ofDump settings y) where
  records := by
    show (settings.order.arrange _).map f = (settings.order.arrange _).map f
    rw [Order.map_arrange _ f ids, Order.map_arrange _ f ids, same.records_eq positive]
  stride := rfl
  slots := by
    show Dump.slotCount settings.stride x = Dump.slotCount settings.stride y
    rw [Dump.slotCount, Dump.slotCount, same.length_eq]
  emptySlots := same.emptyCount_eq positive
  leftover := same.leftover?_eq

/-- The notes at the end of a scan count records and do not look at them. -/
theorem Journal.Agree.endNotes_eq {f : Record → Record} {j k : Journal} (agreed : Agree f j k) :
    Scan.endNotes j = Scan.endNotes k := by
  have count : j.records.length = k.records.length := by
    simpa using congrArg List.length agreed.records
  rw [Scan.endNotes, Scan.endNotes, agreed.leftover, agreed.stride, agreed.slots, count,
    agreed.emptySlots]

/-- Scans that note the same and fail alike, or both succeed with journals that agree. -/
inductive Alike (agree : Journal → Journal → Prop) : Noted Journal → Noted Journal → Prop
  | failed (events : List Event) (fault : Fault) :
      Alike agree ⟨events, .error fault⟩ ⟨events, .error fault⟩
  | read (events : List Event) {j k : Journal} (agreed : agree j k) :
      Alike agree ⟨events, .ok j⟩ ⟨events, .ok k⟩

theorem Alike.imp {agree weaker : Journal → Journal → Prop} {a b : Noted Journal}
    (alike : Alike agree a b) (weaken : ∀ j k, agree j k → weaker j k) : Alike weaker a b := by
  cases alike with
  | failed events fault => exact .failed events fault
  | read events agreed => exact .read events (weaken _ _ agreed)

theorem Alike.events_eq {agree : Journal → Journal → Prop} {a b : Noted Journal}
    (alike : Alike agree a b) : a.events = b.events := by
  cases alike <;> rfl

namespace Scan

theorem header?_congr (stride : Nat) {x y : Bytes} (length : x.length = y.length)
    (first : x.take 20 = y.take 20) : header? stride x = header? stride y := by
  have front : x.take Header.length = y.take Header.length := first
  rw [header?, header?, length, front]

/-- Scans are alike that cut their dumps at the same places, note the same about the slots and the
end, and would give journals that agree. -/
theorem alike {agree : Journal → Journal → Prop} {s t : Settings} {x y : Bytes}
    (wide : Record.idLength < s.stride) (stride : t.stride = s.stride) (strict : t.strict = s.strict)
    (leftover : Dump.leftover? t.stride y = Dump.leftover? s.stride x)
    (slots : slotNotes t.stride y = slotNotes s.stride x)
    (ends : endNotes (.ofDump t y) = endNotes (.ofDump s x))
    (agreed : agree (.ofDump s x) (.ofDump t y)) : Alike agree (scan s x) (scan t y) := by
  have wideT : Record.idLength < t.stride := stride ▸ wide
  by_cases tolerated : s.strict = true → Dump.leftover? s.stride x = none
  · rw [scan_eq_ok s x wide tolerated,
      scan_eq_ok t y wideT fun strictT => leftover ▸ tolerated (strict ▸ strictT), slots, ends]
    exact .read _ agreed
  · obtain ⟨strictS, found⟩ := Classical.not_imp.mp tolerated
    obtain ⟨rest, found⟩ := Option.ne_none_iff_exists'.mp found
    rw [scan_eq_truncated s x rest wide strictS found,
      scan_eq_truncated t y rest wideT (strict ▸ strictS) (leftover ▸ found), slots, stride]
    exact .failed _ _

/-- Dumps that compare slot by slot are read alike. -/
theorem alike_scan {settings : Settings} (wide : Record.idLength < settings.stride)
    (f : Record → Record) (ids : ∀ r, (f r).id = r.id) {x y : Bytes}
    (same : Dump.Comparable f settings.stride x y) :
    Alike (fun j k => j.Agree f k ∧ (x.take 20 = y.take 20 → j.header = k.header))
      (scan settings x) (scan settings y) := by
  have positive : 0 < settings.stride := Nat.zero_lt_of_lt wide
  have agreed := Journal.Agree.ofDump ids positive same
  exact alike wide rfl rfl same.leftover?_eq.symm (same.slotNotes_eq positive).symm
    agreed.endNotes_eq.symm ⟨agreed, header?_congr settings.stride same.length_eq⟩

end Scan

namespace Dump

variable {stride : Nat} {x y : Bytes}

/-- Slots that are empty in both dumps hold no record, whatever else they hold. -/
theorem SameSlots.comparable {same : Bytes → Bytes → Prop} {f : Record → Record}
    (slots : SameSlots same stride x y)
    (isEmpty : ∀ a b, same a b → ∀ offset, Window.isEmpty ⟨offset, a⟩ = Window.isEmpty ⟨offset, b⟩)
    (record : ∀ a b, same a b → ∀ offset,
      (Window.record? ⟨offset, a⟩).map f = (Window.record? ⟨offset, b⟩).map f) :
    Comparable f stride x y where
  length_eq := slots.length_eq
  isEmpty_eq := by
    intro number some_number inside offset
    rcases slots.slots number some_number inside with agree | ⟨emptyX, emptyY⟩
    · exact isEmpty _ _ agree offset
    · exact (decide_eq_true emptyX).trans (decide_eq_true emptyY).symm
  record?_eq := by
    intro number some_number inside offset
    rcases slots.slots number some_number inside with agree | ⟨emptyX, emptyY⟩
    · exact record _ _ agree offset
    · have holdsNone : ∀ bytes : Bytes, bytes[4]? = some 0 →
          Window.record? ⟨offset, bytes⟩ = none := fun bytes zero => if_pos (decide_eq_true zero)
      rw [holdsNone _ emptyX, holdsNone _ emptyY]

theorem SameMessage.isEmpty_eq {a b : Bytes} (same : SameMessage a b) (offset : Nat) :
    Window.isEmpty ⟨offset, a⟩ = Window.isEmpty ⟨offset, b⟩ := by
  have first : (a.drop 4).head? = (b.drop 4).head? := by
    rcases same.text with text | ⟨front, x, y, textA, textB⟩
    · rw [text]
    · rw [textA, textB]
      cases front <;> rfl
  have mark : a[Record.idLength]? = b[Record.idLength]? := by
    rwa [List.head?_drop, List.head?_drop] at first
  simp only [Window.isEmpty, mark]

theorem SameMessage.trimmed_eq {a b : Bytes} (same : SameMessage a b) (offset : Nat) :
    (Window.record? ⟨offset, a⟩).map Record.trimmed =
      (Window.record? ⟨offset, b⟩).map Record.trimmed := by
  have text : beforeNul (a.drop 4) = beforeNul (b.drop 4) := by
    rcases same.text with text | ⟨front, x, y, textA, textB⟩
    · rw [text]
    · rw [textA, textB, beforeNul_append_zero, beforeNul_append_zero]
  have id : a.take Record.idLength = b.take Record.idLength := same.id_eq
  rw [Window.record?, Window.record?, same.isEmpty_eq offset]
  split
  · rfl
  · simp only [Option.map_some, Record.trimmed, id]
    exact congrArg (fun text => some (Record.mk offset _ text)) text

end Dump

/-- Octets that a scan passes over have no influence: dumps that agree in every full slot, but for
slots empty in both, are read alike and shown alike, but for the header. What lies behind the first
NUL of a text is not passed over, but neither the CSV text nor the detailed listing shows it. -/
theorem scan_ignores (settings : Settings) (wide : 4 < settings.stride) (x y : Bytes) :
    (Dump.SameSlots (· = ·) settings.stride x y →
      Alike (fun j k => j.records = k.records ∧ j.slots = k.slots ∧ j.emptySlots = k.emptySlots ∧
          j.leftover = k.leftover ∧ j.verbatim = k.verbatim ∧
          (∀ fileName, Csv.document j fileName = Csv.document k fileName) ∧
          (∃ rest, j.details = j.headerBlock ++ rest ∧ k.details = k.headerBlock ++ rest) ∧
          (x.take 20 = y.take 20 → j.header = k.header))
        (scan settings x) (scan settings y)) ∧
    (Dump.SameSlots Dump.SameMessage settings.stride x y →
      Alike (fun j k => j.slots = k.slots ∧ j.emptySlots = k.emptySlots ∧
          j.leftover = k.leftover ∧
          (∀ fileName, Csv.document j fileName = Csv.document k fileName) ∧
          (∃ rest, j.details = j.headerBlock ++ rest ∧ k.details = k.headerBlock ++ rest) ∧
          (x.take 20 = y.take 20 → j.header = k.header))
        (scan settings x) (scan settings y)) := by
  constructor
  · intro slots
    have same : Dump.Comparable id settings.stride x y :=
      slots.comparable (fun a b same _ => by rw [same]) fun a b same _ => by rw [same]
    refine (Scan.alike_scan wide id (fun _ => rfl) same).imp ?_
    rintro j k ⟨agreed, header⟩
    have records : j.records = k.records := by simpa using agreed.records
    have trimmed := congrArg (List.map Record.trimmed) records
    refine ⟨records, agreed.slots, agreed.emptySlots, agreed.leftover, ?_,
      Csv.document_eq_of_trimmed trimmed, Journal.details_eq_of_trimmed trimmed agreed.stride
        agreed.slots agreed.emptySlots agreed.leftover, header⟩
    rw [Journal.verbatim, Journal.verbatim, records]
  · intro slots
    have same : Dump.Comparable Record.trimmed settings.stride x y :=
      slots.comparable (fun a b same => same.isEmpty_eq) fun a b same => same.trimmed_eq
    refine (Scan.alike_scan wide Record.trimmed (fun _ => rfl) same).imp ?_
    rintro j k ⟨agreed, header⟩
    exact ⟨agreed.slots, agreed.emptySlots, agreed.leftover,
      Csv.document_eq_of_trimmed agreed.records, Journal.details_eq_of_trimmed agreed.records
        agreed.stride agreed.slots agreed.emptySlots agreed.leftover, header⟩

/-- Slots of seven octets, a message and an empty one: dumps that differ in front of the message, in
the empty slot and behind it, and one that also differs behind the NUL of the message. -/
theorem scan_ignores_remains :
    let message : Bytes := [0, 0, 0, 7, 0x41, 0, 0x42]
    let x : Bytes := List.replicate 7 1 ++ message ++ [9, 9, 9, 9, 0, 9, 9] ++ [5]
    let y : Bytes := List.replicate 7 2 ++ message ++ [0, 0, 0, 1, 0, 1, 1] ++ [6]
    let z : Bytes := List.replicate 7 2 ++ [0, 0, 0, 7, 0x41, 0, 0x43] ++ [0, 0, 0, 1, 0, 1, 1] ++ [6]
    4 < 7 ∧ Dump.SameSlots (· = ·) 7 x y ∧ Dump.SameSlots Dump.SameMessage 7 x z ∧
      Alike (fun j k => j.records = k.records ∧ j.verbatim = k.verbatim)
        (scan { stride := 7 } x) (scan { stride := 7 } y) ∧
      Alike (fun j k => ∀ fileName, Csv.document j fileName = Csv.document k fileName)
        (scan { stride := 7 } x) (scan { stride := 7 } z) := by
  intro message x y z
  have wide : 4 < 7 := by decide
  have numbers : ∀ number, 0 < number → (number + 1) * 7 ≤ x.length → number = 1 ∨ number = 2 := by
    intro number some_number inside
    have length : x.length = 22 := rfl
    omega
  have remains : Dump.SameSlots (· = ·) 7 x y := by
    refine ⟨rfl, fun number some_number inside => ?_⟩
    rcases numbers number some_number inside with rfl | rfl <;> decide
  have padding : Dump.SameSlots Dump.SameMessage 7 x z := by
    refine ⟨rfl, fun number some_number inside => ?_⟩
    rcases numbers number some_number inside with rfl | rfl
    · exact .inl ⟨by decide, .inr ⟨[0x41], [0x42], [0x43], by decide, by decide⟩⟩
    · exact .inr (by decide)
  refine ⟨wide, remains, padding, ?_, ?_⟩
  · refine ((scan_ignores { stride := 7 } wide x y).1 remains).imp ?_
    rintro j k ⟨records, -, -, -, verbatim, -⟩
    exact ⟨records, verbatim⟩
  · refine ((scan_ignores { stride := 7 } wide x z).2 padding).imp ?_
    rintro j k ⟨-, -, -, document, -⟩
    exact document

end RamLog
