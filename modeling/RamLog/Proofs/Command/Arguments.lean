import RamLog.Proofs.Command.Parts
import RamLog.Proofs.Text.Ascii

/-!
# What one argument gives

The look of an argument (`Token.ofArgument`) says which octets it consists of, and the reader's
answer to each look says which parts it takes. `Draft.Takes` is what all answers come down to:
what is held back is settled, and parts are added. A value or a file name that is held back
counts as the first part of what follows (`takes_held_stride_iff`, `takes_held_file_iff`).
-/
namespace RamLog.Command

open Text Grammar

namespace Token

def joined : Option Bytes → Bytes
  | none => []
  | some text => equals :: text

theorem splitValue_append {name : Bytes} (plain : equals ∉ name) (value : Option Bytes) :
    splitValue (name ++ joined value) = (name, value) := by
  induction name with
  | nil => cases value <;> simp [splitValue, joined]
  | cons b rest ih =>
    have other : b ≠ equals := fun same => plain (same ▸ List.mem_cons_self)
    rw [List.cons_append, splitValue, if_neg other, ih fun mem => plain (List.mem_cons_of_mem b mem)]

theorem append_joined_splitValue (bs : Bytes) :
    (splitValue bs).1 ++ joined (splitValue bs).2 = bs := by
  induction bs with
  | nil => rfl
  | cons b rest ih =>
    rw [splitValue]
    split
    next is_equals =>
      rw [is_equals]
      rfl
    next => exact congrArg (b :: ·) ih

theorem ofArgument_long {name : Bytes} (some_octet : name ≠ []) (plain : equals ∉ name)
    (value : Option Bytes) :
    ofArgument (dash :: dash :: (name ++ joined value)) = .long name value := by
  have more : name ++ joined value ≠ [] := by simp [some_octet]
  simp [ofArgument, more, splitValue_append plain]

theorem ofArgument_short {letters : Bytes} (some_octet : letters ≠ [])
    (plain : letters.head? ≠ some dash) : ofArgument (dash :: letters) = .short (Utf8.decode letters) := by
  cases letters with
  | nil => exact absurd rfl some_octet
  | cons first rest =>
    have other : first ≠ dash := by simpa using plain
    simp [ofArgument, other]

theorem ofArgument_word {text : Bytes} (plain : text = [dash] ∨ ¬ Dashed text) :
    ofArgument text = .word text := by
  cases text with
  | nil => rfl
  | cons first rest =>
    rcases plain with single | other
    · rw [single]
      rfl
    · have other : first ≠ dash := by simpa [Dashed] using other
      simp [ofArgument, other]

/-- What an argument consists of, by its look. -/
theorem eq_of_ofArgument (argument : Bytes) :
    match ofArgument argument with
    | .separator => argument = [dash, dash]
    | .long name value => argument = dash :: dash :: (name ++ joined value)
    | .short letters => ∃ bs, bs ≠ [] ∧ argument = dash :: bs ∧ letters = Utf8.decode bs
    | .word text => text = argument ∧ (argument = [dash] ∨ ¬ Dashed argument) := by
  match argument with
  | [] => exact ⟨rfl, .inr (by simp [Dashed])⟩
  | [first] =>
    by_cases is_dash : first = dash
    · subst is_dash
      exact ⟨rfl, .inl rfl⟩
    · simp [ofArgument, is_dash, Dashed]
  | first :: second :: tail =>
    by_cases is_dash : first = dash
    · subst is_dash
      by_cases is_dash : second = dash
      · subst is_dash
        cases tail with
        | nil => simp [ofArgument]
        | cons third more => simp [ofArgument, append_joined_splitValue]
      · simp [ofArgument, is_dash]
    · simp [ofArgument, is_dash, Dashed]

end Token

theorem Switch.longName_flag (given : Flag) : (Switch.flag given).longName = given.longName := rfl

theorem Switch.plain_longName (switch : Switch) :
    Token.equals ∉ Utf8.encode switch.longName.toList := by
  rcases switch with (_ | _ | _ | _) | _ | _ | _ <;> decide

theorem Switch.longName_ne_nil (switch : Switch) : Utf8.encode switch.longName.toList ≠ [] := by
  rcases switch with (_ | _ | _ | _) | _ | _ | _ <;> decide

theorem Switch.ofName?_eq_some_iff {name : Bytes} {switch : Switch} :
    Switch.ofName? name = some switch ↔ name = Utf8.encode switch.longName.toList := by
  constructor
  · intro found
    unfold Switch.ofName? at found
    have same := List.find?_some found
    exact (of_decide_eq_true same).symm
  · rintro rfl
    rcases switch with (_ | _ | _ | _) | _ | _ | _ <;> decide

theorem longForm_eq (name : String) :
    longForm name = Token.dash :: Token.dash :: Utf8.encode name.toList := by
  rw [longForm, Utf8.encode_append]
  rfl

theorem ofArgument_longForm (switch : Switch) : Token.ofArgument (longForm switch.longName) =
    .long (Utf8.encode switch.longName.toList) none := by
  have read := Token.ofArgument_long switch.longName_ne_nil switch.plain_longName none
  rwa [Token.joined, List.append_nil, ← longForm_eq] at read

theorem ofArgument_longForm_equals (switch : Switch) (text : Bytes) :
    Token.ofArgument (longForm switch.longName ++ Token.equals :: text) =
      .long (Utf8.encode switch.longName.toList) (some text) := by
  rw [longForm_eq]
  exact Token.ofArgument_long switch.longName_ne_nil switch.plain_longName (some text)

/-- A flag's letter is the octet of its short name. -/
theorem letter_iff {flag : Flag} {b : UInt8} : Letter flag b ↔
    ∃ c, Switch.ofLetter? c = some (.flag flag) ∧ Utf8.IsAscii c ∧ b = Utf8.octet c := by
  constructor
  · rintro (_ | _)
    · exact ⟨'a', rfl, ⟨by decide, by decide⟩, by decide⟩
    · exact ⟨'c', rfl, ⟨by decide, by decide⟩, by decide⟩
  · rintro ⟨c, found, -, rfl⟩
    unfold Switch.ofLetter? at found
    split at found <;> cases found
    · exact .all
    · exact .csv

theorem head?_ne_dash_of_letters {letters : Bytes} {flags : List Flag} (spelled : Letters letters flags) :
    letters.head? ≠ some Token.dash := by
  rcases spelled with _ | ⟨_ | _, _⟩ <;> simp [Token.dash]

namespace Draft

variable {draft after : Draft}

/-- A draft takes parts: what is held back is settled, and the parts are added. -/
def Takes (draft : Draft) (parts : List Part) (after : Draft) : Prop :=
  ∃ settled, draft.settle = .ok settled ∧ parts.foldlM add settled = .ok after

theorem settle_of_pending (clear : draft.pending = none) : draft.settle = .ok draft := by
  obtain ⟨flags, stride, file, pending⟩ := draft
  cases clear
  rfl

theorem add_pending {part : Part} (clear : draft.pending = none) (added : draft.add part = .ok after) :
    after.pending = none := by
  cases part with
  | flag given =>
    obtain ⟨-, rfl⟩ := setFlag_eq_ok_iff.mp added
    exact clear
  | stride text =>
    obtain ⟨-, n, -, rfl⟩ := setStride_eq_ok_iff.mp added
    exact clear
  | file name =>
    obtain ⟨-, rfl⟩ := setFile_eq_ok_iff.mp added
    exact clear

theorem settle_pending (settling : draft.settle = .ok after) : after.pending = none := by
  unfold settle at settling
  dsimp only at settling
  split at settling
  · cases settling
    rfl
  · cases settling
  next text _ =>
    have added : ({ draft with pending := none } : Draft).add (.stride text) = .ok after := settling
    exact add_pending rfl added
  · split at settling
    · cases settling
    · cases settling
      rfl

theorem takes_nil_iff : draft.Takes [] after ↔ draft.settle = .ok after := by
  constructor
  · rintro ⟨settled, settling, same⟩
    cases same
    exact settling
  · intro settling
    exact ⟨after, settling, rfl⟩

theorem takes_iff_of_pending {parts : List Part} (clear : draft.pending = none) :
    draft.Takes parts after ↔ parts.foldlM add draft = .ok after := by
  constructor
  · rintro ⟨settled, settling, added⟩
    cases (settle_of_pending clear).symm.trans settling
    exact added
  · intro added
    exact ⟨draft, settle_of_pending clear, added⟩

theorem takes_singleton_iff {part : Part} : draft.Takes [part] after ↔
    ∃ settled, draft.settle = .ok settled ∧ settled.add part = .ok after := by
  simp only [Takes, List.foldlM_cons, List.foldlM_nil, bind_pure]

theorem foldlM_add_pending {parts : List Part} (clear : draft.pending = none)
    (added : parts.foldlM add draft = .ok after) : after.pending = none := by
  induction parts generalizing draft with
  | nil =>
    cases added
    exact clear
  | cons part parts ih =>
    obtain ⟨next, first, added⟩ := bind_eq_ok_iff.mp added
    exact ih (add_pending clear first) added

theorem Takes.pending {parts : List Part} (taken : draft.Takes parts after) : after.pending = none := by
  obtain ⟨settled, settling, added⟩ := taken
  exact foldlM_add_pending (settle_pending settling) added

theorem takes_append_iff {now later : List Part} : draft.Takes (now ++ later) after ↔
    ∃ next, draft.Takes now next ∧ next.Takes later after := by
  unfold Takes
  constructor
  · rintro ⟨settled, settling, added⟩
    rw [List.foldlM_append] at added
    obtain ⟨next, first, added⟩ := bind_eq_ok_iff.mp added
    have clear := foldlM_add_pending (settle_pending settling) first
    exact ⟨next, ⟨settled, settling, first⟩, (takes_iff_of_pending clear).mpr added⟩
  · rintro ⟨next, ⟨settled, settling, first⟩, taken⟩
    have clear := foldlM_add_pending (settle_pending settling) first
    rw [← Takes, takes_iff_of_pending clear] at taken
    refine ⟨settled, settling, ?_⟩
    rw [List.foldlM_append]
    exact bind_eq_ok_iff.mpr ⟨next, first, taken⟩

/-- A value that is held back is the first part of what follows. -/
theorem takes_held_stride_iff {text : Bytes} {parts : List Part} (clear : draft.pending = none) :
    ({ draft with pending := some (.stride text) } : Draft).Takes parts after ↔
      draft.Takes (.stride text :: parts) after := by
  have settling : ({ draft with pending := some (.stride text) } : Draft).settle =
      draft.setStride text := by
    obtain ⟨flags, stride, file, pending⟩ := draft
    cases clear
    rfl
  rw [Takes, settling, takes_iff_of_pending clear, List.foldlM_cons, bind_eq_ok_iff]
  rfl

/-- A file name that is held back is the first part of what follows. -/
theorem takes_held_file_iff {name : Bytes} {parts : List Part} (clear : draft.pending = none)
    (unset : draft.file = none) (some_octet : name ≠ []) :
    ({ draft with pending := some (.file name) } : Draft).Takes parts after ↔
      draft.Takes (.file name :: parts) after := by
  have settling : ({ draft with pending := some (.file name) } : Draft).settle =
      draft.setFile name := by
    obtain ⟨flags, stride, file, pending⟩ := draft
    cases clear
    cases unset
    simp [settle, setFile, some_octet]
  rw [Takes, settling, takes_iff_of_pending clear, List.foldlM_cons, bind_eq_ok_iff]
  rfl

/-- Whether a file is named can be seen before and after what is held back is settled. -/
theorem file_isSome_of_settle (settling : draft.settle = .ok after) :
    after.file.isSome = draft.hasFile := by
  unfold settle at settling
  dsimp only at settling
  unfold hasFile
  split at settling
  next held =>
    cases settling
    simp [held]
  next => cases settling
  next text held =>
    obtain ⟨-, n, -, rfl⟩ := setStride_eq_ok_iff.mp settling
    simp [held]
  next name held =>
    split at settling
    · cases settling
    · cases settling
      simp [held]

theorem takes_iff_of_settle {settled : Draft} {parts : List Part} (settling : draft.settle = .ok settled) :
    draft.Takes parts after ↔ settled.Takes parts after := by
  rw [takes_iff_of_pending (settle_pending settling), Takes, settling]
  constructor
  · rintro ⟨same, found, added⟩
    cases found
    exact added
  · intro added
    exact ⟨settled, rfl, added⟩

/-! The answers to the looks of an argument. -/

theorem takeSwitch_flag_iff {given : Flag} :
    draft.takeSwitch (.flag given) = .ok after ↔ draft.Takes [.flag given] after := by
  rw [takes_singleton_iff]
  exact bind_eq_ok_iff

theorem takeSwitch_stride_iff : draft.takeSwitch .stride = .ok after ↔
    ∃ settled, draft.settle = .ok settled ∧ after = { settled with pending := some .strideValue } := by
  rw [takeSwitch, bind_eq_ok_iff]
  simp only [pure, Except.pure, Except.ok.injEq, eq_comm]

/-- An option that stands by itself is a flag or waits for its value. -/
theorem takeSwitch_eq_ok {switch : Switch} (taken : draft.takeSwitch switch = .ok after) :
    (∃ given, switch = .flag given) ∨ switch = .stride := by
  obtain ⟨settled, -, taken⟩ := bind_eq_ok_iff.mp taken
  cases switch with
  | flag given => exact .inl ⟨given, rfl⟩
  | stride => exact .inr rfl
  | help => cases taken
  | version => cases taken

theorem takeLong_none {switch : Switch} :
    draft.takeLong (Utf8.encode switch.longName.toList) none = draft.takeSwitch switch := by
  unfold takeLong
  rw [Switch.ofName?_eq_some_iff.mpr rfl]

theorem takeLong_stride_some_iff {text : Bytes} :
    draft.takeLong (Utf8.encode Switch.stride.longName.toList) (some text) = .ok after ↔
      draft.Takes [.stride text] after := by
  unfold takeLong
  rw [Switch.ofName?_eq_some_iff.mpr rfl, takes_singleton_iff]
  exact bind_eq_ok_iff

/-- A long option that is taken is an option by itself, or the slot length with its value. -/
theorem takeLong_eq_ok {name : Bytes} {value : Option Bytes}
    (taken : draft.takeLong name value = .ok after) :
    ∃ switch : Switch, name = Utf8.encode switch.longName.toList ∧
      (value = none ∨ switch = .stride ∧ ∃ text, value = some text) := by
  unfold takeLong at taken
  split at taken
  next => cases taken
  next switch found => exact ⟨switch, Switch.ofName?_eq_some_iff.mp found, .inl rfl⟩
  next text found => exact ⟨.stride, Switch.ofName?_eq_some_iff.mp found, .inr ⟨rfl, text, rfl⟩⟩
  next => cases taken

theorem settle_of_takeLong {name : Bytes} {value : Option Bytes}
    (taken : draft.takeLong name value = .ok after) : ∃ settled, draft.settle = .ok settled := by
  obtain ⟨switch, rfl, rfl | ⟨rfl, text, rfl⟩⟩ := takeLong_eq_ok taken
  · rw [takeLong_none] at taken
    obtain ⟨settled, settling, -⟩ := bind_eq_ok_iff.mp taken
    exact ⟨settled, settling⟩
  · obtain ⟨settled, settling, -⟩ := takeLong_stride_some_iff.mp taken
    exact ⟨settled, settling⟩

theorem takeName_iff {name : Bytes} : draft.takeName name = .ok after ↔
    ∃ settled, draft.settle = .ok settled ∧ settled.file = none ∧
      after = { settled with pending := some (.file name) } := by
  unfold takeName
  constructor
  · intro taken
    split at taken
    · cases taken
    next unset =>
      obtain ⟨settled, settling, taken⟩ := bind_eq_ok_iff.mp taken
      cases taken
      rw [← file_isSome_of_settle settling] at unset
      exact ⟨settled, settling, by simpa using unset, rfl⟩
  · rintro ⟨settled, settling, unset, rfl⟩
    have unset : ¬ draft.hasFile = true := by simp [← file_isSome_of_settle settling, unset]
    rw [if_neg unset, bind_eq_ok_iff]
    exact ⟨settled, settling, rfl⟩

/-- A name that is taken is the first part of what follows. -/
theorem takeName_takes_iff {name : Bytes} {parts : List Part} (some_octet : name ≠ []) :
    (∃ next, draft.takeName name = .ok next ∧ next.Takes parts after) ↔
      draft.Takes (.file name :: parts) after := by
  constructor
  · rintro ⟨next, taken, later⟩
    obtain ⟨settled, settling, unset, rfl⟩ := takeName_iff.mp taken
    rw [takes_iff_of_settle settling]
    exact (takes_held_file_iff (settle_pending settling) unset some_octet).mp later
  · rintro ⟨settled, settling, added⟩
    obtain ⟨next, first, -⟩ := bind_eq_ok_iff.mp added
    obtain ⟨unset, -⟩ := setFile_eq_ok_iff.mp first
    have clear := settle_pending settling
    refine ⟨_, takeName_iff.mpr ⟨settled, settling, unset, rfl⟩, ?_⟩
    rw [takes_held_file_iff clear unset some_octet, takes_iff_of_pending clear]
    exact added

/-- A slot length whose value comes next is the first part of what follows. -/
theorem takeSwitch_stride_takes_iff {text : Bytes} {parts : List Part} :
    (∃ next, draft.takeSwitch .stride = .ok next ∧
      ({ next with pending := some (.stride text) } : Draft).Takes parts after) ↔
      draft.Takes (.stride text :: parts) after := by
  constructor
  · rintro ⟨next, taken, later⟩
    obtain ⟨settled, settling, rfl⟩ := takeSwitch_stride_iff.mp taken
    rw [takes_iff_of_settle settling]
    exact (takes_held_stride_iff (settle_pending settling)).mp later
  · rintro ⟨settled, settling, added⟩
    have clear := settle_pending settling
    refine ⟨_, takeSwitch_stride_iff.mpr ⟨settled, settling, rfl⟩, ?_⟩
    refine (takes_held_stride_iff clear).mpr ((takes_iff_of_pending clear).mpr added)

theorem takeLetters_cons {c : Char} {flag : Flag} {more : List (Option Char)}
    (found : Switch.ofLetter? c = some (.flag flag)) :
    draft.takeLetters (some c :: more) = draft.takeSwitch (.flag flag) >>= (·.takeLetters more) := by
  rw [takeLetters, found]

theorem takeLetters_iff_of_pending {letters : Bytes} {flags : List Flag}
    (spelled : Letters letters flags) (clear : draft.pending = none) :
    draft.takeLetters (Utf8.decode letters) = .ok after ↔
      (flags.map Part.flag).foldlM add draft = .ok after := by
  induction spelled generalizing draft with
  | nil => rfl
  | cons letter _ ih =>
    obtain ⟨c, found, ascii, rfl⟩ := letter_iff.mp letter
    rw [Utf8.decode_octet_cons ascii, takeLetters_cons found, List.map_cons, List.foldlM_cons,
      bind_eq_ok_iff, bind_eq_ok_iff]
    simp only [takeSwitch_flag_iff, takes_iff_of_pending clear, List.foldlM_cons, List.foldlM_nil,
      bind_pure]
    constructor
    · rintro ⟨next, first, taken⟩
      exact ⟨next, first, (ih (add_pending clear first)).mp taken⟩
    · rintro ⟨next, first, added⟩
      exact ⟨next, first, (ih (add_pending clear first)).mpr added⟩

/-- A group of letters gives its flags. -/
theorem takeLetters_iff {letters : Bytes} {flags : List Flag} (spelled : Letters letters flags)
    (some_letter : letters ≠ []) :
    draft.takeLetters (Utf8.decode letters) = .ok after ↔ draft.Takes (flags.map .flag) after := by
  cases spelled with
  | nil => exact absurd rfl some_letter
  | @cons flag b letters flags letter spelled =>
    obtain ⟨c, found, ascii, rfl⟩ := letter_iff.mp letter
    rw [Utf8.decode_octet_cons ascii, takeLetters_cons found, bind_eq_ok_iff, List.map_cons,
      ← List.singleton_append, takes_append_iff]
    simp only [takeSwitch_flag_iff]
    constructor
    · rintro ⟨next, first, taken⟩
      rw [takeLetters_iff_of_pending spelled first.pending] at taken
      exact ⟨next, first, (takes_iff_of_pending first.pending).mpr taken⟩
    · rintro ⟨next, first, taken⟩
      rw [takes_iff_of_pending first.pending] at taken
      exact ⟨next, first, (takeLetters_iff_of_pending spelled first.pending).mpr taken⟩

/-- Letters that are taken are the letters of flags. -/
theorem letters_of_takeLetters {letters : Bytes}
    (taken : draft.takeLetters (Utf8.decode letters) = .ok after) :
    ∃ flags, Letters letters flags := by
  -- the induction is on the characters, because the reader looks at these
  obtain ⟨cs, read⟩ : ∃ cs, Utf8.decode letters = cs := ⟨_, rfl⟩
  rw [read] at taken
  induction cs generalizing draft letters with
  | nil =>
    cases letters with
    | nil => exact ⟨[], .nil⟩
    | cons b bs => exact absurd read (Utf8.decode_cons_ne_nil b bs)
  | cons head more ih =>
    cases head with
    | none => cases taken
    | some c =>
      unfold takeLetters at taken
      split at taken
      · cases taken
      next switch found =>
        obtain ⟨next, first, later⟩ := bind_eq_ok_iff.mp taken
        obtain ⟨flag, rfl⟩ : ∃ flag, switch = .flag flag := by
          rcases takeSwitch_eq_ok first with ⟨flag, rfl⟩ | rfl
          · exact ⟨flag, rfl⟩
          · unfold Switch.ofLetter? at found
            split at found <;> cases found
        have ascii : Utf8.IsAscii c := by
          unfold Switch.ofLetter? at found
          split at found <;> cases found <;> exact ⟨by decide, by decide⟩
        obtain ⟨rest, rfl, behind⟩ := Utf8.eq_octet_cons_of_decode ascii read
        obtain ⟨flags, spelled⟩ := ih later behind
        exact ⟨flag :: flags, .cons (letter_iff.mpr ⟨c, found, ascii, rfl⟩) spelled⟩

end Draft

end RamLog.Command
