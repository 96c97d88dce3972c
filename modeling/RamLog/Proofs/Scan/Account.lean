import RamLog.Scan

/-!
# What a scan gives

Reading a full slot never fails, so a scan can go wrong in two ways only: the slots have no room for
text, or octets are left over and the settings are strict. `scan_eq_strideTooSmall`,
`scan_eq_truncated` and `scan_eq_ok` give the events and the result of every scan; the journal of a
scan that succeeds is `Journal.ofDump`.
-/
namespace RamLog

namespace Window

/-- Whether the text of a full slot begins with the mark of an empty one. -/
def isEmpty (w : Window) : Bool := w.bytes[Record.idLength]? = some Record.emptyMark

def record? (w : Window) : Option Record :=
  if w.isEmpty then none
  else some ⟨w.offset, UInt32.ofNat (Bytes.bigValue (w.bytes.take Record.idLength)),
    w.bytes.drop Record.idLength⟩

def notes (w : Window) : List Event := if w.isEmpty then [.emptySlot w.offset] else []

/-- A slot with room for text is read, whatever its octets. -/
theorem read?_eq (w : Window) (wide : Record.idLength < w.bytes.length) :
    Record.read? w.offset w.bytes = .ok w.record? := by
  have text : w.bytes.drop Record.idLength =
      w.bytes[Record.idLength] :: w.bytes.drop (Record.idLength + 1) :=
    List.drop_eq_getElem_cons wide
  have empty : w.isEmpty = decide (w.bytes[Record.idLength] = Record.emptyMark) := by
    simp [isEmpty, List.getElem?_eq_getElem wide]
  rw [Record.read?, record?, empty, text]
  by_cases marked : w.bytes[Record.idLength] = Record.emptyMark
  · simp only [marked, decide_true, if_true]
  · simp only [marked, decide_false, if_false, Bool.false_eq_true]

theorem isNone_record? (w : Window) : w.record?.isNone = w.isEmpty := by
  unfold record?
  cases w.isEmpty <;> rfl

/-- Every full slot is either a record or empty. -/
theorem length_records_add_empty (windows : List Window) :
    (windows.filterMap record?).length + windows.countP isEmpty = windows.length := by
  induction windows with
  | nil => rfl
  | cons w rest ih =>
    rw [List.filterMap_cons, List.countP_cons, record?]
    cases w.isEmpty
    · simp only [Bool.false_eq_true, if_false, List.length_cons]
      omega
    · simp only [if_true, List.length_cons]
      omega

end Window

namespace Scan

/-- The header of a dump, if there is room for one. -/
def header? (stride : Nat) (data : Bytes) : Option Header :=
  if Header.length ≤ stride ∧ Header.length ≤ data.length then
    (Header.decode (data.take Header.length)).toOption
  else none

/-- Twenty octets always decode. -/
theorem exists_decode (data : Bytes) (enough : Header.length ≤ data.length) :
    ∃ h, Header.decode (data.take Header.length) = .ok h := by
  have long : ¬ (data.take Header.length).length < Header.length := by
    rw [List.length_take]
    omega
  exact ⟨_, by rw [Header.decode, if_neg long]⟩

/-- Reading the header never fails: it is only tried where there is room. -/
theorem readHeader_eq (stride : Nat) (data : Bytes) :
    readHeader stride data = .ok (header? stride data) := by
  unfold readHeader header?
  split
  next room =>
    obtain ⟨h, decoded⟩ := exists_decode data room.2
    rw [decoded]
    rfl
  · rfl

/-- One turn of the loop notes an empty slot and puts what it read in front. -/
theorem readSlots_cons (w : Window) (rest : List Window)
    (wide : Record.idLength < w.bytes.length) :
    readSlots (w :: rest) = ⟨w.notes ++ (readSlots rest).events,
      (readSlots rest).result.map (w.record? :: ·)⟩ := by
  rw [readSlots, Window.read?_eq w wide, Noted.ofExcept, Noted.ok_bind, w.isNone_record?, Window.notes]
  cases w.isEmpty <;> rfl

/-- Slots with room for text are read one and all, and the empty ones are noted in order. -/
theorem readSlots_eq (windows : List Window)
    (wide : ∀ w ∈ windows, Record.idLength < w.bytes.length) :
    readSlots windows = ⟨windows.flatMap Window.notes, .ok (windows.map Window.record?)⟩ := by
  induction windows with
  | nil => rfl
  | cons w rest ih =>
    rw [readSlots_cons w rest (wide w (by simp)), ih fun v member => wide v (by simp [member])]
    rfl

end Scan

/-- The journal of a dump in which octets left over are no fault. -/
def Journal.ofDump (settings : Settings) (data : Bytes) : Journal where
  header := Scan.header? settings.stride data
  records := settings.order.arrange
    ((Dump.windows settings.stride data).filterMap Window.record?)
  stride := settings.stride
  slots := Dump.slotCount settings.stride data
  emptySlots := (Dump.windows settings.stride data).countP Window.isEmpty
  leftover := Dump.leftover? settings.stride data

namespace Scan

def slotNotes (stride : Nat) (data : Bytes) : List Event :=
  (Dump.windows stride data).flatMap Window.notes

/-- What is noted about the end of a dump: octets left out, and then the counts. -/
def endNotes (journal : Journal) : List Event :=
  (journal.leftover.toList.map fun rest => .ignored rest.offset rest.length journal.stride) ++
    [.scanned journal.slots journal.records.length journal.emptySlots]

/-- Reading the slots of a dump never fails when they have room for text. -/
theorem readSlots_windows {stride : Nat} (wide : Record.idLength < stride) (data : Bytes) :
    readSlots (Dump.windows stride data) =
      ⟨slotNotes stride data, .ok ((Dump.windows stride data).map Window.record?)⟩ := by
  refine readSlots_eq _ fun w member => ?_
  rw [Dump.length_of_mem_windows member]
  exact wide

/-- Slots without room for text are refused before anything is read. -/
theorem scan_eq_strideTooSmall (settings : Settings) (data : Bytes)
    (narrow : settings.stride ≤ Record.idLength) :
    scan settings data =
      ⟨[], .error (.strideTooSmall settings.stride Record.idLength)⟩ := by
  rw [scan, Settings.check, if_pos narrow]
  rfl

/-- A strict reader refuses octets left over. -/
theorem treatLeftover_of_strict {settings : Settings} (strict : settings.strict = true)
    (rest : Leftover) : treatLeftover settings (some rest) =
      ⟨[], .error (.truncated rest.offset rest.length settings.stride)⟩ := by
  rw [treatLeftover, if_pos strict]
  rfl

/-- Otherwise they are noted and kept. -/
theorem treatLeftover_of_tolerated {settings : Settings} {leftover : Option Leftover}
    (tolerated : settings.strict = true → leftover = none) :
    treatLeftover settings leftover =
      ⟨leftover.toList.map fun rest => .ignored rest.offset rest.length settings.stride,
        .ok leftover⟩ := by
  cases leftover with
  | none => rfl
  | some rest =>
    have lenient : settings.strict ≠ true := by
      intro strict
      have nothing := tolerated strict
      contradiction
    rw [treatLeftover, if_neg lenient]
    rfl

/-- Octets left over end a strict scan after the slots have been noted. -/
theorem scan_eq_truncated (settings : Settings) (data : Bytes) (rest : Leftover)
    (wide : Record.idLength < settings.stride) (strict : settings.strict = true)
    (found : Dump.leftover? settings.stride data = some rest) :
    scan settings data = ⟨slotNotes settings.stride data,
      .error (.truncated rest.offset rest.length settings.stride)⟩ := by
  rw [scan, Settings.check, if_neg (Nat.not_le.mpr wide), readHeader_eq,
    readSlots_windows wide, found, treatLeftover_of_strict strict]
  simp only [Noted.ofExcept, Noted.ok_bind, Noted.error_bind, List.nil_append, List.append_nil]

/-- Every other scan succeeds. -/
theorem scan_eq_ok (settings : Settings) (data : Bytes)
    (wide : Record.idLength < settings.stride)
    (tolerated : settings.strict = true → Dump.leftover? settings.stride data = none) :
    scan settings data =
      ⟨slotNotes settings.stride data ++ endNotes (.ofDump settings data),
        .ok (.ofDump settings data)⟩ := by
  have records : ((Dump.windows settings.stride data).map Window.record?).filterMap id =
      (Dump.windows settings.stride data).filterMap Window.record? := by
    rw [List.filterMap_map]
    rfl
  have empty : ((Dump.windows settings.stride data).map Window.record?).countP (·.isNone) =
      (Dump.windows settings.stride data).countP Window.isEmpty := by
    rw [List.countP_map]
    exact List.countP_congr fun w _ => by rw [Function.comp_apply, w.isNone_record?]
  rw [scan, Settings.check, if_neg (Nat.not_le.mpr wide), readHeader_eq,
    readSlots_windows wide, treatLeftover_of_tolerated tolerated]
  simp only [Noted.ofExcept, Noted.note, Noted.pure_eq, Noted.ok_bind, List.nil_append, List.append_nil,
    records, empty, List.length_map, Dump.length_windows, Journal.ofDump, endNotes]

theorem result_eq_ok (settings : Settings) (data : Bytes)
    (wide : Record.idLength < settings.stride)
    (tolerated : settings.strict = true → Dump.leftover? settings.stride data = none) :
    (scan settings data).result = .ok (.ofDump settings data) := by
  rw [scan_eq_ok settings data wide tolerated]

/-- With room for text, nothing but octets left over makes a scan fail. -/
theorem eq_truncated_of_result {settings : Settings} {data : Bytes} {fault : Fault}
    (wide : Record.idLength < settings.stride)
    (failed : (scan settings data).result = .error fault) :
    settings.strict = true ∧ ∃ rest, Dump.leftover? settings.stride data = some rest ∧
      fault = .truncated rest.offset rest.length settings.stride := by
  by_cases tolerated : settings.strict = true → Dump.leftover? settings.stride data = none
  · rw [result_eq_ok settings data wide tolerated] at failed
    cases failed
  · obtain ⟨strict, found⟩ := Classical.not_imp.mp tolerated
    obtain ⟨rest, found⟩ := Option.ne_none_iff_exists'.mp found
    rw [scan_eq_truncated settings data rest wide strict found] at failed
    exact ⟨strict, rest, found, (Except.error.inj failed).symm⟩

theorem wide_of_result {settings : Settings} {data : Bytes} {journal : Journal}
    (scanned : (scan settings data).result = .ok journal) :
    Record.idLength < settings.stride := by
  apply Nat.lt_of_not_le
  intro narrow
  rw [scan_eq_strideTooSmall settings data narrow] at scanned
  cases scanned

/-- A strict scan that succeeds leaves nothing over. -/
theorem tolerated_of_result {settings : Settings} {data : Bytes} {journal : Journal}
    (scanned : (scan settings data).result = .ok journal) :
    settings.strict = true → Dump.leftover? settings.stride data = none := by
  intro strict
  cases found : Dump.leftover? settings.stride data with
  | none => rfl
  | some rest =>
    rw [scan_eq_truncated settings data rest (wide_of_result scanned) strict found] at scanned
    cases scanned

/-- The journal of a scan that succeeds. -/
theorem eq_ofDump_of_result {settings : Settings} {data : Bytes} {journal : Journal}
    (scanned : (scan settings data).result = .ok journal) :
    Record.idLength < settings.stride ∧ journal = .ofDump settings data := by
  have wide := wide_of_result scanned
  rw [result_eq_ok settings data wide (tolerated_of_result scanned)] at scanned
  exact ⟨wide, (Except.ok.inj scanned).symm⟩

/-- Arranging records loses none of them and adds none. -/
theorem perm_arrange (order : Order) (records : List Record) :
    (order.arrange records).Perm records := by
  cases order with
  | file => exact List.Perm.refl _
  | sequence => exact List.mergeSort_perm _ _

/-- Arranging records keeps which they are. -/
theorem mem_arrange {order : Order} {records : List Record} {r : Record} :
    r ∈ order.arrange records ↔ r ∈ records := (perm_arrange order records).mem_iff

/-- A journal has no records exactly if every full slot is empty. -/
theorem records_ofDump_eq_nil_iff {settings : Settings} {data : Bytes} :
    (Journal.ofDump settings data).records = [] ↔
      ∀ w ∈ Dump.windows settings.stride data, w.isEmpty = true := by
  rw [Journal.ofDump, List.eq_nil_iff_forall_not_mem]
  simp only [mem_arrange]
  rw [← List.eq_nil_iff_forall_not_mem, List.filterMap_eq_nil_iff]
  simp only [← Option.isNone_iff_eq_none, Window.isNone_record?]

theorem scanFile_ok {settings : Settings} (wide : Record.idLength < settings.stride)
    (data : Bytes) : scanFile settings (.ok data) = scan settings data := by
  rw [scanFile, Settings.check, if_neg (Nat.not_le.mpr wide)]
  rfl

theorem scanFile_error {settings : Settings} (wide : Record.idLength < settings.stride)
    (cause : FileFault) : scanFile settings (.error cause) = ⟨[], .error (.unreadable cause)⟩ := by
  rw [scanFile, Settings.check, if_neg (Nat.not_le.mpr wide)]
  rfl

end Scan

end RamLog
