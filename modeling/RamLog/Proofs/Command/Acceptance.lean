import RamLog.Command.Run
import RamLog.Proofs.Command.Arguments

/-!
# The command lines that are accepted

The reader against the grammar. Arguments that spell parts are read exactly if the parts can be
taken (`readArguments_iff`), and arguments that are read spell parts
(`exists_spells_of_readArguments`). So a command line asks for the run that its parts name
(`read_eq_run_iff_names`), and `read_grammar` puts together what becomes of every command line.
-/
namespace RamLog.Command

open Text Grammar

namespace Draft

variable {draft after : Draft}

theorem readNames_iff {names : List Bytes} (some_octet : ∀ name ∈ names, name ≠ []) :
    draft.readNames names = .ok after ↔ draft.Takes (names.map .file) after := by
  induction names generalizing draft with
  | nil => exact takes_nil_iff.symm
  | cons name rest ih =>
    have here := some_octet name List.mem_cons_self
    have later : ∀ {next : Draft}, next.readNames rest = .ok after ↔ next.Takes (rest.map .file) after :=
      ih fun other mem => some_octet other (List.mem_cons_of_mem name mem)
    rw [readNames, bind_eq_ok_iff, List.map_cons, ← takeName_takes_iff here]
    simp only [later]

theorem readArguments_long {argument name : Bytes} {value : Option Bytes} {rest : List Bytes}
    (look : Token.ofArgument argument = .long name value) :
    draft.readArguments (argument :: rest) = draft.takeLong name value >>= (·.readArguments rest) := by
  rw [readArguments, look]

theorem readArguments_short {argument : Bytes} {letters : List (Option Char)} {rest : List Bytes}
    (look : Token.ofArgument argument = .short letters) :
    draft.readArguments (argument :: rest) = draft.takeLetters letters >>= (·.readArguments rest) := by
  rw [readArguments, look]

theorem readArguments_word {argument text : Bytes} {rest : List Bytes}
    (look : Token.ofArgument argument = .word text) :
    draft.readArguments (argument :: rest) = draft.takeWord text >>= (·.readArguments rest) := by
  rw [readArguments, look]

/-- The value that is waited for is held back. -/
theorem readArguments_value {text : Bytes} {rest : List Bytes}
    (waiting : draft.pending = some .strideValue) (plain : text = [Token.dash] ∨ ¬ Dashed text) :
    draft.readArguments (text :: rest) =
      ({ draft with pending := some (.stride text) } : Draft).readArguments rest := by
  rw [readArguments_word (Token.ofArgument_word plain), takeWord, if_pos waiting]
  rfl

/-- An argument whose parts are taken at once, and what follows it. -/
theorem takes_then_iff {first : Except Stop Draft} {rest : List Bytes} {now later : List Part}
    (taken_iff : ∀ next, first = .ok next ↔ draft.Takes now next)
    (later_iff : ∀ next : Draft, next.pending ≠ some .strideValue →
      (next.readArguments rest = .ok after ↔ next.Takes later after)) :
    (first >>= (·.readArguments rest)) = .ok after ↔ draft.Takes (now ++ later) after := by
  rw [bind_eq_ok_iff, takes_append_iff]
  simp only [taken_iff]
  exact exists_congr fun next => and_congr_right fun taken => later_iff next (by simp [taken.pending])

/-- Arguments that spell parts are read exactly if the parts can be taken, unless the first of
them is waited for. -/
theorem readArguments_iff {arguments : List Bytes} {parts : List Part}
    (spells : Spells arguments parts) (free : draft.pending ≠ some .strideValue) :
    draft.readArguments arguments = .ok after ↔ draft.Takes parts after := by
  induction spells generalizing draft with
  | nil => exact takes_nil_iff.symm
  | flag given _ ih =>
    rw [← Switch.longName_flag, readArguments_long (ofArgument_longForm (.flag given)), takeLong_none]
    exact takes_then_iff (fun _ => takeSwitch_flag_iff) fun _ free => ih free
  | group some_letter letters _ ih =>
    have look := Token.ofArgument_short some_letter (head?_ne_dash_of_letters letters)
    rw [readArguments_short look]
    exact takes_then_iff (fun _ => takeLetters_iff letters some_letter) fun _ free => ih free
  | joined text _ ih =>
    rw [readArguments_long (ofArgument_longForm_equals .stride text)]
    exact takes_then_iff (fun _ => takeLong_stride_some_iff) fun _ free => ih free
  | @apart rest parts text plain _ ih =>
    rw [readArguments_long (ofArgument_longForm .stride), takeLong_none, bind_eq_ok_iff,
      ← takeSwitch_stride_takes_iff]
    refine exists_congr fun next => and_congr_right fun taken => ?_
    obtain ⟨settled, -, rfl⟩ := takeSwitch_stride_iff.mp taken
    rw [readArguments_value rfl (.inr plain)]
    exact ih (by simp)
  | @file rest parts name some_octet plain _ ih =>
    rw [readArguments_word (Token.ofArgument_word plain), takeWord, if_neg free, bind_eq_ok_iff,
      ← takeName_takes_iff some_octet]
    refine exists_congr fun next => and_congr_right fun taken => ?_
    obtain ⟨settled, -, -, rfl⟩ := takeName_iff.mp taken
    exact ih (by simp)
  | names some_octet =>
    rw [readArguments]
    exact readNames_iff some_octet

/-! What is held back and can never be settled. -/

theorem not_settle_of_waiting (waiting : draft.pending = some .strideValue) :
    draft.settle ≠ .ok after := by
  intro settling
  unfold settle at settling
  rw [waiting] at settling
  cases settling

theorem not_settle_of_dash (held : draft.pending = some (.stride [Token.dash])) :
    draft.settle ≠ .ok after := by
  intro settling
  unfold settle at settling
  rw [held] at settling
  obtain ⟨-, n, ⟨cs, decoded, value⟩, -⟩ := setStride_eq_ok_iff.mp settling
  have found : Utf8.decode? [Token.dash] = some ['-'] := by decide
  cases found.symm.trans decoded
  cases value

theorem not_settle_of_empty (held : draft.pending = some (.file [])) : draft.settle ≠ .ok after := by
  intro settling
  unfold settle at settling
  rw [held] at settling
  cases settling

theorem ne_nil_of_readNames {names : List Bytes} (read : draft.readNames names = .ok after) :
    ∀ name ∈ names, name ≠ [] := by
  induction names generalizing draft with
  | nil => simp
  | cons name rest ih =>
    obtain ⟨next, taken, read⟩ := bind_eq_ok_iff.mp read
    obtain ⟨settled, -, -, rfl⟩ := takeName_iff.mp taken
    have later := ih read
    obtain ⟨done, settling, -⟩ := (readNames_iff later).mp read
    rintro other mem rfl
    rcases List.mem_cons.mp mem with rfl | mem
    · exact not_settle_of_empty rfl settling
    · exact later [] mem rfl

/-- Where a value is waited for, the next argument is taken for it. -/
theorem value_of_readArguments {arguments : List Bytes} (waiting : draft.pending = some .strideValue)
    (read : draft.readArguments arguments = .ok after) :
    ∃ text rest, arguments = text :: rest ∧ (text = [Token.dash] ∨ ¬ Dashed text) := by
  cases arguments with
  | nil => exact absurd read (not_settle_of_waiting waiting)
  | cons argument rest =>
    have look := Token.eq_of_ofArgument argument
    rw [readArguments] at read
    split at read
    next =>
      obtain ⟨settled, settling, -⟩ := (readNames_iff (ne_nil_of_readNames read)).mp read
      exact absurd settling (not_settle_of_waiting waiting)
    next =>
      obtain ⟨next, taken, -⟩ := bind_eq_ok_iff.mp read
      obtain ⟨settled, settling⟩ := settle_of_takeLong taken
      exact absurd settling (not_settle_of_waiting waiting)
    next is_short =>
      rw [is_short] at look
      obtain ⟨bs, some_letter, -, rfl⟩ := look
      obtain ⟨next, taken, -⟩ := bind_eq_ok_iff.mp read
      obtain ⟨flags, spelled⟩ := letters_of_takeLetters taken
      obtain ⟨settled, settling, -⟩ := (takeLetters_iff spelled some_letter).mp taken
      exact absurd settling (not_settle_of_waiting waiting)
    next is_word =>
      rw [is_word] at look
      exact ⟨argument, rest, rfl, look.2⟩

section Remains

variable {argument : Bytes} {rest : List Bytes} {next : Draft}
  (remains : next.readArguments rest = .ok after)
  (later : ∀ {next : Draft} {arguments : List Bytes}, arguments.length ≤ rest.length →
    next.pending ≠ some .strideValue → next.readArguments arguments = .ok after →
    ∃ parts, Spells arguments parts)
include remains later

theorem exists_spells_of_takeSwitch {switch : Switch} (taken : draft.takeSwitch switch = .ok next) :
    ∃ parts, Spells (longForm switch.longName :: rest) parts := by
  rcases takeSwitch_eq_ok taken with ⟨given, rfl⟩ | rfl
  · have clear := (takeSwitch_flag_iff.mp taken).pending
    obtain ⟨parts, spells⟩ := later (Nat.le_refl _) (by simp [clear]) remains
    exact ⟨.flag given :: parts, .flag given spells⟩
  · obtain ⟨settled, -, rfl⟩ := takeSwitch_stride_iff.mp taken
    obtain ⟨text, behind, rfl, plain⟩ := value_of_readArguments rfl remains
    rw [readArguments_value rfl plain] at remains
    obtain ⟨parts, spells⟩ := later (by simp) (by simp) remains
    obtain ⟨done, settling, -⟩ := (readArguments_iff spells (by simp)).mp remains
    have not_dash : text ≠ [Token.dash] := by
      rintro rfl
      exact not_settle_of_dash rfl settling
    exact ⟨.stride text :: parts, .apart (plain.resolve_left not_dash) spells⟩

theorem exists_spells_of_takeLong {name : Bytes} {value : Option Bytes}
    (taken : draft.takeLong name value = .ok next) :
    ∃ parts, Spells ((Token.dash :: Token.dash :: (name ++ Token.joined value)) :: rest) parts := by
  obtain ⟨switch, rfl, rfl | ⟨rfl, text, rfl⟩⟩ := takeLong_eq_ok taken
  · rw [takeLong_none] at taken
    rw [Token.joined, List.append_nil, ← longForm_eq]
    exact exists_spells_of_takeSwitch remains later taken
  · have clear := (takeLong_stride_some_iff.mp taken).pending
    obtain ⟨parts, spells⟩ := later (Nat.le_refl _) (by simp [clear]) remains
    rw [Token.joined, ← List.cons_append, ← List.cons_append, ← longForm_eq]
    exact ⟨.stride text :: parts, .joined text spells⟩

theorem exists_spells_of_takeLetters {letters : Bytes} (some_letter : letters ≠ [])
    (taken : draft.takeLetters (Utf8.decode letters) = .ok next) :
    ∃ parts, Spells ((Token.dash :: letters) :: rest) parts := by
  obtain ⟨flags, spelled⟩ := letters_of_takeLetters taken
  have clear := ((takeLetters_iff spelled some_letter).mp taken).pending
  obtain ⟨parts, spells⟩ := later (Nat.le_refl _) (by simp [clear]) remains
  exact ⟨flags.map .flag ++ parts, .group some_letter spelled spells⟩

theorem exists_spells_of_takeName {name : Bytes} (plain : name = [Token.dash] ∨ ¬ Dashed name)
    (taken : draft.takeName name = .ok next) : ∃ parts, Spells (name :: rest) parts := by
  obtain ⟨settled, -, -, rfl⟩ := takeName_iff.mp taken
  obtain ⟨parts, spells⟩ := later (Nat.le_refl _) (by simp) remains
  obtain ⟨done, settling, -⟩ := (readArguments_iff spells (by simp)).mp remains
  have some_octet : name ≠ [] := by
    rintro rfl
    exact not_settle_of_empty rfl settling
  exact ⟨.file name :: parts, .file some_octet plain spells⟩

end Remains

/-- Arguments that are read spell parts. -/
theorem exists_spells_of_readArguments {arguments : List Bytes}
    (free : draft.pending ≠ some .strideValue) (read : draft.readArguments arguments = .ok after) :
    ∃ parts, Spells arguments parts := by
  -- a separate value is read together with its option, so the induction is on the length
  induction bound : arguments.length using Nat.strongRecOn generalizing draft arguments with
  | ind n ih =>
  subst bound
  cases arguments with
  | nil => exact ⟨[], .nil⟩
  | cons argument rest =>
    have later : ∀ {next : Draft} {arguments : List Bytes}, arguments.length ≤ rest.length →
        next.pending ≠ some .strideValue → next.readArguments arguments = .ok after →
        ∃ parts, Spells arguments parts :=
      fun shorter free read => ih _ (Nat.lt_succ_of_le shorter) free read rfl
    have look := Token.eq_of_ofArgument argument
    rw [readArguments] at read
    split at read
    next is_separator =>
      rw [is_separator] at look
      rw [look]
      exact ⟨rest.map .file, .names (ne_nil_of_readNames read)⟩
    next is_long =>
      rw [is_long] at look
      rw [look]
      obtain ⟨next, taken, remains⟩ := bind_eq_ok_iff.mp read
      exact exists_spells_of_takeLong remains later taken
    next is_short =>
      rw [is_short] at look
      obtain ⟨letters, some_letter, rfl, rfl⟩ := look
      obtain ⟨next, taken, remains⟩ := bind_eq_ok_iff.mp read
      exact exists_spells_of_takeLetters remains later some_letter taken
    next is_word =>
      rw [is_word] at look
      obtain ⟨rfl, plain⟩ := look
      obtain ⟨next, taken, remains⟩ := bind_eq_ok_iff.mp read
      rw [takeWord, if_neg free] at taken
      exact exists_spells_of_takeName remains later plain taken

end Draft

theorem read_eq_run_iff {arguments : List Bytes} {request : Request} :
    read arguments = .run request ↔
      ∃ draft : Draft, ({} : Draft).readArguments arguments = .ok draft ∧ draft.request = .ok request := by
  rw [← bind_eq_ok_iff, read]
  split
  next found => simp [found]
  all_goals next found => simp [found]

/-- A command line is read as the run that its parts name. -/
theorem read_eq_run_iff_names {arguments : List Bytes} {parts : List Part} {request : Request}
    (spells : Spells arguments parts) : read arguments = .run request ↔ Names parts request := by
  have start : ({} : Draft).pending ≠ some .strideValue := by decide
  have clear : ({} : Draft).pending = none := rfl
  rw [read_eq_run_iff, names_iff]
  refine exists_congr fun draft => and_congr_left fun _ => ?_
  rw [Draft.readArguments_iff spells start, Draft.takes_iff_of_pending clear,
    Draft.foldlM_add_eq_ok_iff]

theorem read_eq_run_iff_accepts {arguments : List Bytes} {request : Request} :
    read arguments = .run request ↔ Accepts arguments request := by
  constructor
  · intro accepted
    obtain ⟨draft, reading, -⟩ := read_eq_run_iff.mp accepted
    obtain ⟨parts, spells⟩ := Draft.exists_spells_of_readArguments (by decide) reading
    exact ⟨parts, spells, (read_eq_run_iff_names spells).mp accepted⟩
  · rintro ⟨parts, spells, named⟩
    exact (read_eq_run_iff_names spells).mpr named

/-- The order of parts does not matter to what they name. -/
theorem Grammar.Names.perm {parts parts' : List Part} {request : Request} (same : parts.Perm parts')
    (named : Names parts request) : Names parts' request where
  flags_once flag := same.count_eq (.flag flag) ▸ named.flags_once flag
  one_format := by
    rw [← same.mem_iff, ← same.mem_iff]
    exact named.one_format
  file := by
    rcases named.file with ⟨name, only, is_name⟩ | ⟨nothing, is_default⟩
    · exact .inl ⟨name, List.perm_singleton.mp (only ▸ (same.filter _).symm), is_name⟩
    · exact .inr ⟨List.perm_nil.mp (nothing ▸ (same.filter _).symm), is_default⟩
  stride := by
    rcases named.stride with ⟨text, only, spelled⟩ | ⟨nothing, is_default⟩
    · exact .inl ⟨text, List.perm_singleton.mp (only ▸ (same.filter _).symm), spelled⟩
    · exact .inr ⟨List.perm_nil.mp (nothing ▸ (same.filter _).symm), is_default⟩
  details := named.details.trans same.mem_iff
  csv := named.csv.trans same.mem_iff
  strict := named.strict.trans same.mem_iff
  order := named.order.trans same.mem_iff

/-- Exactly the command lines of the grammar ask for a run, and for the run they name. Command
lines that spell the same parts in another order or another way ask for the same run. All others
give help or the version, or are refused with a message and status 2. -/
theorem read_grammar (arguments : List Bytes) :
    (∀ request, read arguments = .run request ↔ Accepts arguments request) ∧
    (∀ arguments' parts parts', Spells arguments parts → Spells arguments' parts' →
      parts.Perm parts' → ∀ request, read arguments = .run request ↔ read arguments' = .run request) ∧
    ((¬ ∃ request, Accepts arguments request) →
      read arguments = .help ∨ read arguments = .version ∨
      ∃ fault, read arguments = .refuse fault ∧ ∀ files verbosity stdout,
        run arguments files verbosity stdout = { exit := 2, message := fault.line }) := by
  refine ⟨fun request => read_eq_run_iff_accepts, ?_, ?_⟩
  · intro arguments' parts parts' spells spells' same request
    rw [read_eq_run_iff_names spells, read_eq_run_iff_names spells']
    exact ⟨fun named => named.perm same, fun named => named.perm same.symm⟩
  · intro rejected
    cases reading : read arguments with
    | help => exact .inl rfl
    | version => exact .inr (.inl rfl)
    | run request => exact absurd ⟨request, read_eq_run_iff_accepts.mp reading⟩ rejected
    | refuse fault =>
      refine .inr (.inr ⟨fault, rfl, fun files verbosity stdout => ?_⟩)
      rw [run, reading]
      rfl

/-- Two ways to ask for the CSV form of a dump with short slots, and two formats at once. -/
theorem read_grammar_arranged :
    let file := Utf8.encode "dump".toList
    let length := Utf8.encode "16".toList
    let grouped := [Utf8.encode "-c".toList, Utf8.encode "--record-len=16".toList, file]
    let apart := [Utf8.encode "--record-len".toList, length, Utf8.encode "--csv".toList,
      Utf8.encode "--".toList, file]
    let both := [Utf8.encode "-ac".toList]
    let request : Request := { file, format := .csv, settings := { stride := 16 } }
    Accepts grouped request ∧ read apart = .run request ∧
    ∃ fault, read both = .refuse fault ∧ ∀ files verbosity stdout,
      run both files verbosity stdout = { exit := 2, message := fault.line } := by
  intro file length grouped apart both request
  have reading : read grouped = .run request := by decide
  have letters : Letters [0x63] [.csv] := .cons .csv .nil
  have first : Spells grouped [.flag .csv, .stride length, .file file] :=
    .group (by decide) letters (.joined length (.file (by decide) (.inr (by decide)) .nil))
  have behind : Spells [[Token.dash, Token.dash], file] [.file file] := .names (by simp; decide)
  have second : Spells apart [.stride length, .flag .csv, .file file] :=
    .apart (by decide) (.flag .csv behind)
  refine ⟨((read_grammar grouped).1 request).mp reading, ?_, ?_⟩
  · exact ((read_grammar grouped).2.1 apart _ _ first second (.swap _ _ _) request).mp reading
  · have refused : read both = .refuse (.conflict .all .csv) := by decide
    have rejected : ¬ ∃ request, Accepts both request := by
      rintro ⟨request, accepted⟩
      cases refused.symm.trans (((read_grammar both).1 request).mpr accepted)
    rcases (read_grammar both).2.2 rejected with help | version | fault
    · cases refused.symm.trans help
    · cases refused.symm.trans version
    · exact fault

end RamLog.Command
