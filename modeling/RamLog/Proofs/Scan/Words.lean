import Mathlib.Algebra.Group.Nat.Defs
import RamLog.Proofs.Dump.Slots
import RamLog.Scan.Machine

/-!
# Words that do not wrap

A dump is shorter than half of what a word counts. When the body of the loop is entered, the offset
is at least one stride and lies inside the dump, so it can grow by a stride without wrapping, however
wide the stride is (`Cursor.At.safe`). The loop therefore goes through the slots of the dump one by
one (`covers_run`), in no more turns than there are strides in the dump, and gives what the
scan gives in unbounded numbers (`scan_words`).
-/
namespace RamLog.Scan.Machine

/-- A sum that a word can hold. -/
theorem toNat_add_of_lt {a b : UInt64} (fits : a.toNat + b.toNat < 2 ^ 64) :
    (a + b).toNat = a.toNat + b.toNat := by
  rw [UInt64.toNat_add, Nat.mod_eq_of_lt fits]

namespace Cursor

/-- What the words hold in front of the slot of a number, the header block being number zero. -/
structure At (stride : UInt64) (number : Nat) (cursor : Cursor) : Prop where
  offset : cursor.offset.toNat = (number + 1) * stride.toNat
  slots : cursor.slots.toNat = number
  empty : cursor.empty.toNat ≤ number

/-- A cursor with which the body of the loop can do its arithmetic and cut its window: no sum leaves
the words, no difference is negative, and a window lies in the dump and has room for text. -/
structure Safe (stride : UInt64) (data : Bytes) (cursor : Cursor) : Prop where
  inside : cursor.offset.toNat ≤ data.length
  next : cursor.offset.toNat + stride.toNat < 2 ^ 64
  slots : cursor.slots.toNat + 1 < 2 ^ 64
  empty : cursor.empty.toNat + 1 < 2 ^ 64
  window : ∀ bytes, window? data cursor.offset (cursor.offset + stride) = some bytes →
    cursor.offset.toNat + stride.toNat ≤ data.length ∧ bytes.length = stride.toNat ∧ 4 < bytes.length

theorem at_first (stride : UInt64) : At stride 0 (first stride) where
  offset := by
    have one : UInt64.ofNat Dump.headerSlots = 1 := rfl
    rw [first, one, UInt64.mul_one, Nat.zero_add, Nat.one_mul]
  slots := rfl
  empty := Nat.le_refl 0

end Cursor

section Loop

variable {settings : Settings} {stride : UInt64} {data : Bytes} {cursor : Cursor} {number : Nat}

/-- A slot that the dump holds whole is cut from it. -/
theorem window?_of_whole (fits : cursor.offset.toNat + stride.toNat < 2 ^ 64)
    (whole : cursor.offset.toNat + stride.toNat ≤ data.length) :
    window? data cursor.offset (cursor.offset + stride) =
      some ((data.drop cursor.offset.toNat).take stride.toNat) := by
  have ordered : cursor.offset ≤ cursor.offset + stride := by
    rw [UInt64.le_iff_toNat_le, toNat_add_of_lt fits]
    omega
  rw [window?, toNat_add_of_lt fits, if_pos ⟨ordered, whole⟩, Nat.add_sub_cancel_left]

theorem window?_of_cut (fits : cursor.offset.toNat + stride.toNat < 2 ^ 64)
    (cut : data.length < cursor.offset.toNat + stride.toNat) :
    window? data cursor.offset (cursor.offset + stride) = none := by
  rw [window?, toNat_add_of_lt fits, if_neg]
  omega

section Turn

variable (small : data.length < 2 ^ 63)

include small

theorem toNat_size : (UInt64.ofNat data.length).toNat = data.length := by
  apply UInt64.toNat_ofNat_of_lt'
  exact Nat.lt_trans small (by decide)

/-- At the end of the dump the loop ends. -/
theorem turn_eq_finished (past : data.length ≤ cursor.offset.toNat) :
    turn stride data cursor = .finished := by
  have outside : ¬ cursor.offset < UInt64.ofNat data.length := by
    rw [UInt64.lt_iff_toNat_lt, toNat_size small]
    omega
  rw [turn, if_neg outside]

variable (inside : cursor.offset.toNat < data.length)
  (fits : cursor.offset.toNat + stride.toNat < 2 ^ 64)

include inside fits

/-- At a slot that the dump cuts off, what is left over is counted. -/
theorem turn_eq_cut (cut : data.length < cursor.offset.toNat + stride.toNat) :
    turn stride data cursor = .cut ⟨cursor.offset.toNat, data.length - cursor.offset.toNat⟩ := by
  have entered : cursor.offset < UInt64.ofNat data.length := by
    rw [UInt64.lt_iff_toNat_lt, toNat_size small]
    exact inside
  have rest : (UInt64.ofNat data.length - cursor.offset).toNat =
      data.length - cursor.offset.toNat := by
    rw [UInt64.toNat_sub_of_le _ _ (UInt64.le_of_lt entered), toNat_size small]
  rw [turn, if_pos entered, window?_of_cut fits cut]
  simp only [rest]

/-- At any other slot, the slot is read. -/
theorem turn_eq_slot (wide : Record.idLength < stride.toNat)
    (whole : cursor.offset.toNat + stride.toNat ≤ data.length) :
    turn stride data cursor = .slot (Window.record?
      ⟨cursor.offset.toNat, (data.drop cursor.offset.toNat).take stride.toNat⟩) := by
  have entered : cursor.offset < UInt64.ofNat data.length := by
    rw [UInt64.lt_iff_toNat_lt, toNat_size small]
    exact inside
  have room : Record.idLength < ((data.drop cursor.offset.toNat).take stride.toNat).length := by
    rw [List.length_take, List.length_drop]
    omega
  rw [turn, if_pos entered, window?_of_whole fits whole]
  simp only [Window.read?_eq ⟨cursor.offset.toNat, _⟩ room]

end Turn

namespace Cursor.At

/-- Wherever the body is entered, a stride more does not wrap: the offset is no less than a stride
and less than half of what a word counts. -/
theorem no_wrap (cursorAt : cursor.At stride number) (small : data.length < 2 ^ 63)
    (inside : cursor.offset.toNat < data.length) :
    cursor.offset.toNat + stride.toNat < 2 ^ 64 := by
  have further : stride.toNat ≤ cursor.offset.toNat := by
    rw [cursorAt.offset]
    exact Nat.le_mul_of_pos_left _ (Nat.succ_pos number)
  omega

/-- There are fewer slots than octets. -/
theorem number_lt (cursorAt : cursor.At stride number) (positive : 0 < stride.toNat)
    (inside : cursor.offset.toNat < data.length) : number + 1 < data.length := by
  rw [cursorAt.offset] at inside
  exact Nat.lt_of_le_of_lt (Nat.le_mul_of_pos_right _ positive) inside

/-- The counter of empty slots counts one slot more if that is empty. -/
theorem empty_advance (cursorAt : cursor.At stride number) (positive : 0 < stride.toNat)
    (small : data.length < 2 ^ 63) (inside : cursor.offset.toNat < data.length)
    (slot : Option Record) : (cursor.advance stride slot).empty.toNat =
      cursor.empty.toNat + if slot.isNone then 1 else 0 := by
  have fewer := cursorAt.number_lt positive inside
  have empty := cursorAt.empty
  have one : (1 : UInt64).toNat = 1 := rfl
  cases slot with
  | none => exact toNat_add_of_lt (by omega)
  | some r => rfl

/-- Reading a slot puts the words in front of the next one. -/
theorem advance (cursorAt : cursor.At stride number) (positive : 0 < stride.toNat)
    (small : data.length < 2 ^ 63) (inside : cursor.offset.toNat < data.length)
    (slot : Option Record) : (cursor.advance stride slot).At stride (number + 1) := by
  have fits := cursorAt.no_wrap small inside
  have fewer := cursorAt.number_lt positive inside
  have slots := cursorAt.slots
  have empty := cursorAt.empty
  have one : (1 : UInt64).toNat = 1 := rfl
  constructor
  · rw [Cursor.advance, toNat_add_of_lt fits, cursorAt.offset, ← Nat.succ_mul]
  · rw [Cursor.advance, toNat_add_of_lt (by omega), slots, one]
  · rw [cursorAt.empty_advance positive small inside]
    split <;> omega

theorem safe (cursorAt : cursor.At stride number) (wide : Record.idLength < stride.toNat)
    (small : data.length < 2 ^ 63) (inside : cursor.offset.toNat < data.length) :
    cursor.Safe stride data := by
  have fits := cursorAt.no_wrap small inside
  have fewer := cursorAt.number_lt (Nat.zero_lt_of_lt wide) inside
  have slots := cursorAt.slots
  have empty := cursorAt.empty
  refine ⟨Nat.le_of_lt inside, fits, by omega, by omega, ?_⟩
  intro bytes found
  rcases Nat.lt_or_ge data.length (cursor.offset.toNat + stride.toNat) with cut | whole
  · rw [window?_of_cut fits cut] at found
    contradiction
  · rw [window?_of_whole fits whole] at found
    cases found
    have length : ((data.drop cursor.offset.toNat).take stride.toNat).length = stride.toNat := by
      rw [List.length_take, List.length_drop]
      omega
    rw [length]
    exact ⟨whole, rfl, wide⟩

end Cursor.At

/-- In front of a slot that the dump holds whole, that slot is read. -/
theorem turn_of_whole (cursorAt : cursor.At stride number) (wide : Record.idLength < stride.toNat)
    (small : data.length < 2 ^ 63) (whole : cursor.offset.toNat + stride.toNat ≤ data.length) :
    turn stride data cursor = .slot (Window.record?
      ⟨(number + 1) * stride.toNat, Dump.slot stride.toNat (number + 1) data⟩) := by
  have inside : cursor.offset.toNat < data.length := by omega
  have found := turn_eq_slot small inside (cursorAt.no_wrap small inside) wide whole
  rw [cursorAt.offset] at found
  exact found

/-- All that a turn can do in front of a slot: the dump ends before the slot, inside it, or not before
its end. -/
theorem turn_cases (cursorAt : cursor.At stride number) (wide : Record.idLength < stride.toNat)
    (small : data.length < 2 ^ 63) :
    (data.length ≤ cursor.offset.toNat ∧ turn stride data cursor = .finished) ∨
    (cursor.offset.toNat < data.length ∧ data.length < cursor.offset.toNat + stride.toNat ∧
      turn stride data cursor = .cut ⟨cursor.offset.toNat, data.length - cursor.offset.toNat⟩) ∨
    (cursor.offset.toNat < data.length ∧ cursor.offset.toNat + stride.toNat ≤ data.length ∧
      turn stride data cursor = .slot (Window.record?
        ⟨(number + 1) * stride.toNat, Dump.slot stride.toNat (number + 1) data⟩)) := by
  rcases Nat.lt_or_ge cursor.offset.toNat data.length with inside | past
  · rcases Nat.lt_or_ge data.length (cursor.offset.toNat + stride.toNat) with cut | whole
    · have found := turn_eq_cut small inside (cursorAt.no_wrap small inside) cut
      exact .inr (.inl ⟨inside, cut, found⟩)
    · exact .inr (.inr ⟨inside, whole, turn_of_whole cursorAt wide small whole⟩)
  · exact .inl ⟨past, turn_eq_finished small past⟩

section Run

variable {turns : Nat}

theorem run_of_finished (finished : turn stride data cursor = .finished) :
    run settings stride data (turns + 1) cursor = { cursor, ending := some (.ok none) } := by
  rw [run, finished]

theorem run_of_cut {rest : Leftover} (cut : turn stride data cursor = .cut rest) :
    run settings stride data (turns + 1) cursor =
      { entered := [cursor]
        events := (treatLeftover settings (some rest)).events
        cursor
        ending := some (treatLeftover settings (some rest)).result } := by
  rw [run, cut]

theorem run_of_slot {slot : Option Record} (found : turn stride data cursor = .slot slot) :
    run settings stride data (turns + 1) cursor =
      (run settings stride data turns (cursor.advance stride slot)).behind cursor slot := by
  rw [run, found]

end Run

/-- A run enters the body in front of one slot after another, and only inside the dump. -/
theorem at_entered (wide : Record.idLength < stride.toNat) (small : data.length < 2 ^ 63)
    (cursorAt : cursor.At stride number) {turns i : Nat} {c : Cursor}
    (entered : (run settings stride data turns cursor).entered[i]? = some c) :
    c.At stride (number + i) ∧ c.offset.toNat < data.length := by
  induction turns generalizing number cursor i with
  | zero => contradiction
  | succ turns ih =>
    rcases turn_cases cursorAt wide small with
      ⟨_, finished⟩ | ⟨inside, _, cut⟩ | ⟨inside, _, slot⟩
    · rw [run_of_finished finished] at entered
      contradiction
    · rw [run_of_cut cut] at entered
      cases i with
      | zero =>
        cases entered
        exact ⟨cursorAt, inside⟩
      | succ i => contradiction
    · rw [run_of_slot slot] at entered
      cases i with
      | zero =>
        cases entered
        exact ⟨cursorAt, inside⟩
      | succ i =>
        have later := ih (cursorAt.advance (Nat.zero_lt_of_lt wide) small inside _) entered
        rw [Nat.add_right_comm] at later
        exact later

/-- The body is entered no more often than there are strides in the dump. -/
theorem length_entered_le (wide : Record.idLength < stride.toNat) (small : data.length < 2 ^ 63)
    (cursorAt : cursor.At stride 0) (turns : Nat) :
    (run settings stride data turns cursor).entered.length ≤ data.length / stride.toNat := by
  apply (Nat.le_div_iff_mul_le (Nat.zero_lt_of_lt wide)).mpr
  cases count : (run settings stride data turns cursor).entered.length with
  | zero => omega
  | succ last =>
    have there : last < (run settings stride data turns cursor).entered.length := by omega
    obtain ⟨lastAt, inside⟩ := at_entered wide small cursorAt (List.getElem?_eq_getElem there)
    rw [lastAt.offset, Nat.zero_add] at inside
    exact Nat.le_of_lt inside

/-- A run that has gone through all the slots of a dump behind a number of them, begun with certain
words, and has treated the octets left over. -/
structure Run.Covers (settings : Settings) (stride : Nat) (data : Bytes) (number : Nat)
    (before : Cursor) (run : Run) : Prop where
  events : run.events = ((Dump.windows stride data).drop number).flatMap Window.notes ++
    (treatLeftover settings (Dump.leftover? stride data)).events
  records : run.records = ((Dump.windows stride data).drop number).filterMap Window.record?
  slots : run.cursor.slots.toNat = Dump.slotCount stride data
  empty : run.cursor.empty.toNat =
    before.empty.toNat + ((Dump.windows stride data).drop number).countP Window.isEmpty
  ending : run.ending = some (treatLeftover settings (Dump.leftover? stride data)).result

/-- Where the slots of a dump end, the dump ends, or there are as many octets left over as it has. -/
theorem leftover?_cases (positive : 0 < stride.toNat)
    (last : cursor.At stride (Dump.slotCount stride.toNat data)) :
    (data.length ≤ cursor.offset.toNat ∧ Dump.leftover? stride.toNat data = none) ∨
    (cursor.offset.toNat < data.length ∧ data.length < cursor.offset.toNat + stride.toNat ∧
      Dump.leftover? stride.toNat data =
        some ⟨cursor.offset.toNat, data.length - cursor.offset.toNat⟩) := by
  have offset := last.offset
  have split := Nat.mod_add_div (data.length - stride.toNat) stride.toNat
  have bound := Nat.mod_lt (data.length - stride.toNat) positive
  rw [Dump.slotCount, Dump.start_eq, Nat.succ_mul] at offset
  rw [Nat.mul_comm] at split
  rw [Dump.leftover?, Dump.slotCount, Dump.start_eq]
  by_cases whole : (data.length - stride.toNat) % stride.toNat = 0
  · exact .inl ⟨by omega, if_pos whole⟩
  · have rest : (data.length - stride.toNat) % stride.toNat =
        data.length - cursor.offset.toNat := by omega
    have start : stride.toNat + (data.length - stride.toNat) / stride.toNat * stride.toNat =
        cursor.offset.toNat := by omega
    refine .inr ⟨by omega, by omega, ?_⟩
    rw [← rest, ← start]
    exact if_neg whole

/-- Behind the last slot, a run has only the octets left over to treat. -/
theorem covers_last (positive : 0 < stride.toNat) (small : data.length < 2 ^ 63) (turns : Nat)
    (last : cursor.At stride (Dump.slotCount stride.toNat data)) :
    (run settings stride data (turns + 1) cursor).Covers settings stride.toNat data
      (Dump.slotCount stride.toNat data) cursor := by
  have done : (Dump.windows stride.toNat data).drop (Dump.slotCount stride.toNat data) = [] := by
    simp
  rcases leftover?_cases positive last with ⟨past, whole⟩ | ⟨inside, cut, rest⟩
  · rw [run_of_finished (turn_eq_finished small past)]
    constructor <;> simp only [done, whole]
    · rfl
    · rfl
    · exact last.slots
    · rfl
    · rfl
  · rw [run_of_cut (turn_eq_cut small inside (last.no_wrap small inside) cut)]
    constructor <;> simp only [done, rest]
    · rfl
    · rfl
    · exact last.slots
    · rfl

/-- A run that covers all slots behind one covers that slot too when it is read first. -/
theorem Run.Covers.behind {run : Run} {w : Window}
    (covers : run.Covers settings stride.toNat data (number + 1) (cursor.advance stride w.record?))
    (next : (Dump.windows stride.toNat data).drop number =
      w :: (Dump.windows stride.toNat data).drop (number + 1))
    (offset : cursor.offset.toNat = w.offset)
    (empty : (cursor.advance stride w.record?).empty.toNat =
      cursor.empty.toNat + if w.record?.isNone then 1 else 0) :
    (run.behind cursor w.record?).Covers settings stride.toNat data number cursor where
  events := by
    rw [next, List.flatMap_cons, List.append_assoc, ← covers.events, Run.behind, w.isNone_record?,
      offset]
    rfl
  records := by
    rw [next, List.filterMap_cons, ← covers.records, Run.behind]
    cases w.record? <;> rfl
  slots := covers.slots
  empty := by
    show run.cursor.empty.toNat = _
    rw [w.isNone_record?] at empty
    rw [covers.empty, empty, next, List.countP_cons, Nat.add_assoc, Nat.add_comm (ite _ _ _)]
  ending := covers.ending

/-- Begun in front of a slot, and with turns enough for the slots behind it, a run goes through all
of them. -/
theorem covers_run (wide : Record.idLength < stride.toNat) (small : data.length < 2 ^ 63) {turns : Nat}
    (before : number ≤ Dump.slotCount stride.toNat data)
    (enough : Dump.slotCount stride.toNat data < number + turns)
    (cursorAt : cursor.At stride number) :
    (run settings stride data turns cursor).Covers settings stride.toNat data number cursor := by
  have positive : 0 < stride.toNat := Nat.zero_lt_of_lt wide
  induction turns generalizing number cursor with
  | zero => omega
  | succ turns ih =>
    rcases Nat.eq_or_lt_of_le before with rfl | another
    · exact covers_last positive small turns cursorAt
    · have fits := (Dump.lt_slotCount_iff positive data number).mp another
      rw [Nat.succ_mul (number + 1), ← cursorAt.offset] at fits
      have inside : cursor.offset.toNat < data.length := by omega
      rw [run_of_slot (turn_of_whole cursorAt wide small fits)]
      apply Run.Covers.behind _ (Dump.drop_windows another) cursorAt.offset
      · exact cursorAt.empty_advance positive small inside _
      · exact ih another (by omega) (cursorAt.advance positive small inside _)

end Loop

section Report

variable {settings : Settings} {data : Bytes}

/-- With room for text in the slots, a scan is a run of the loop. -/
theorem scan_of_wide (wide : Record.idLength < settings.stride) (turns : Nat) :
    let stride := UInt64.ofNat settings.stride
    let run := run settings stride data turns (.first stride)
    scan settings data turns =
      { entered := run.entered
        noted := run.ending.map (run.close settings (header? settings.stride data)) } := by
  rw [scan, Settings.check, if_neg (Nat.not_le.mpr wide), readHeader_eq]

/-- Without, it ends in front of the loop. -/
theorem scan_of_narrow (narrow : settings.stride ≤ Record.idLength) (turns : Nat) :
    scan settings data turns = { noted := some (RamLog.scan settings data) } := by
  rw [scan, scan_eq_strideTooSmall settings data narrow, Settings.check, if_pos narrow]

/-- A run through all the slots notes and finds what a scan does. -/
theorem Run.Covers.noted_eq {run : Run} {before : Cursor} (wide : Record.idLength < settings.stride)
    (covers : run.Covers settings settings.stride data 0 before) (fresh : before.empty.toNat = 0) :
    run.ending.map (run.close settings (header? settings.stride data)) =
      some (RamLog.scan settings data) := by
  have events := covers.events
  have records := covers.records
  have slots := covers.slots
  have empty := covers.empty
  rw [List.drop_zero] at events records empty
  rw [fresh, Nat.zero_add] at empty
  rw [covers.ending, Option.map_some]
  by_cases tolerated : settings.strict = true → Dump.leftover? settings.stride data = none
  · rw [treatLeftover_of_tolerated tolerated] at events ⊢
    rw [scan_eq_ok settings data wide tolerated, Run.close, events, records, slots, empty,
      List.append_assoc]
    rfl
  · obtain ⟨strict, found⟩ := Classical.not_imp.mp tolerated
    obtain ⟨rest, found⟩ := Option.ne_none_iff_exists'.mp found
    rw [found, treatLeftover_of_strict strict] at events ⊢
    rw [scan_eq_truncated settings data rest wide strict found, Run.close, events, List.append_nil]
    rfl

end Report

/-- Scanning in words is exact. Whatever the stride and however many turns are allowed, no sum in
front of the loop or in its body leaves the words, no difference is negative, the header and every
window that is cut lie in the dump, and the body is entered no more often than there are strides in
the dump. As soon as more turns than that are allowed, the loop has ended by itself, and what was
noted and found is what the scan in unbounded numbers notes and finds. -/
theorem scan_words (settings : Settings) (data : Bytes) (small : data.length < 2 ^ 63)
    (word : settings.stride < 2 ^ 64) :
    settings.stride * Dump.headerSlots < 2 ^ 64 ∧
    (readHeader settings.stride data ≠ .ok none → 20 ≤ data.length) ∧
    ∀ turns,
      (scan settings data turns).entered.length ≤ data.length / settings.stride ∧
      (∀ cursor ∈ (scan settings data turns).entered, cursor.Safe (.ofNat settings.stride) data) ∧
      (data.length / settings.stride < turns →
        (scan settings data turns).noted = some (RamLog.scan settings data)) := by
  refine ⟨?_, ?_, ?_⟩
  · rw [Dump.headerSlots, Nat.mul_one]
    exact word
  · intro found
    apply Nat.le_of_not_lt
    intro short
    apply found
    rw [readHeader, if_neg]
    intro room
    exact absurd room.2 (Nat.not_le.mpr short)
  · intro turns
    rcases Nat.lt_or_ge Record.idLength settings.stride with wide | narrow
    · have size : (UInt64.ofNat settings.stride).toNat = settings.stride :=
        UInt64.toNat_ofNat_of_lt' word
      have wideWord : Record.idLength < (UInt64.ofNat settings.stride).toNat := by
        rw [size]
        exact wide
      have begun := Cursor.at_first (.ofNat settings.stride)
      rw [scan_of_wide wide]
      refine ⟨?_, ?_, ?_⟩
      · have count : (run settings _ data turns _).entered.length ≤ _ :=
          length_entered_le wideWord small begun turns
        rw [size] at count
        exact count
      · intro cursor member
        obtain ⟨i, entered⟩ := List.mem_iff_getElem?.mp member
        obtain ⟨cursorAt, inside⟩ := at_entered wideWord small begun entered
        exact cursorAt.safe wideWord small inside
      · intro enough
        have slots : Dump.slotCount settings.stride data ≤ data.length / settings.stride :=
          Nat.div_le_div_right (Nat.sub_le _ _)
        have covers : (run settings _ data turns _).Covers settings _ data 0 _ :=
          covers_run wideWord small (Nat.zero_le _) (by rw [size, Nat.zero_add]; omega) begun
        rw [size] at covers
        exact covers.noted_eq wide rfl
    · rw [scan_of_narrow narrow]
      refine ⟨Nat.zero_le _, ?_, fun _ => rfl⟩
      intro cursor member
      contradiction

/-- A dump of twenty-one octets, in slots of five octets and in slots of the widest stride there is. -/
theorem scan_words_widest :
    let widest := 2 ^ 64 - 1
    let data : Bytes := List.replicate 21 1
    data.length < 2 ^ 63 ∧ widest < 2 ^ 64 ∧
      readHeader widest data ≠ .ok none ∧ 20 ≤ data.length ∧
      data.length / widest < 1 ∧
      (scan { stride := widest } data 1).noted = some (RamLog.scan { stride := widest } data) ∧
      5 < 2 ^ 64 ∧ { offset := 20, slots := 3 } ∈ (scan { stride := 5 } data 5).entered ∧
      Cursor.Safe 5 data { offset := 20, slots := 3 } ∧
      data.length / 5 < 5 ∧
      (scan { stride := 5 } data 5).noted = some (RamLog.scan { stride := 5 } data) := by
  intro widest data
  have small : data.length < 2 ^ 63 := by decide
  have word : widest < 2 ^ 64 := by decide
  have found : readHeader widest data ≠ .ok none := by
    have decoded : readHeader widest data =
        .ok (some ⟨0x01010101, 0x01010101, 0x01010101, 0x01010101, 0x01010101⟩) := rfl
    rw [decoded]
    nofun
  have five : 5 < 2 ^ 64 := by decide
  have last : { offset := 20, slots := 3 } ∈ (scan { stride := 5 } data 5).entered := by decide
  obtain ⟨_, header, wide⟩ := scan_words { stride := widest } data small word
  obtain ⟨_, _, narrow⟩ := scan_words { stride := 5 } data small five
  obtain ⟨_, _, whole⟩ := wide 1
  obtain ⟨_, safe, slots⟩ := narrow 5
  exact ⟨small, word, found, header found, by decide, whole (by decide), five, last, safe _ last,
    by decide, slots (by decide)⟩

end RamLog.Scan.Machine
