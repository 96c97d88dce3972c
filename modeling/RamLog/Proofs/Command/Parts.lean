import Mathlib.Data.List.Forall2
import Mathlib.Data.List.Induction
import Mathlib.Data.List.Nodup
import RamLog.Command.Grammar
import RamLog.Proofs.Command.Settings

/-!
# From parts to a request

Taking parts one after another (`Draft.add`) succeeds exactly if some draft holds what they say
(`Draft.Collects`): no flag twice, at most one slot length that is one, and at most one file
(`Draft.foldlM_add_eq_ok_iff`). A request comes out of such a draft exactly if the parts name it
(`names_iff`).
-/
namespace RamLog.Command

open Text Grammar

namespace Grammar.Part

def flag? : Part → Option Flag
  | .flag given => some given
  | _ => none

def stride? : Part → Option Bytes
  | .stride text => some text
  | _ => none

def file? : Part → Option Bytes
  | .file name => some name
  | _ => none

end Grammar.Part

namespace Draft

def setFile (draft : Draft) (name : Bytes) : Except Stop Draft :=
  if draft.file.isSome then fail (.unexpected (Utf8.lossy name))
  else .ok { draft with file := some name }

def add (draft : Draft) : Part → Except Stop Draft
  | .flag given => draft.setFlag given
  | .stride text => draft.setStride text
  | .file name => draft.setFile name

/-- A draft that holds what parts say, with nothing held back. -/
structure Collects (parts : List Part) (draft : Draft) : Prop where
  pending : draft.pending = none
  flags : parts.filterMap Part.flag? = draft.flags
  flags_once : draft.flags.Nodup
  stride : List.Forall₂ StrideText (parts.filterMap Part.stride?) draft.stride.toList
  file : parts.filterMap Part.file? = draft.file.toList

variable {draft after : Draft}

theorem filterMap_concat {α β : Type} (f : α → Option β) (before : List α) (last : α) :
    (before ++ [last]).filterMap f = before.filterMap f ++ (f last).toList := by
  rw [List.filterMap_append]
  cases found : f last <;> simp [found]

/-- Where there is at most one, the last is the only one. -/
theorem concat_eq_toList_iff {α : Type} {before : List α} {last : α} {held : Option α} :
    before ++ [last] = held.toList ↔ before = [] ∧ held = some last := by
  cases held with
  | none => simp
  | some a => simp [List.append_eq_singleton_iff, eq_comm]

theorem forall₂_concat_toList_iff {α β : Type} {R : α → β → Prop} {before : List α} {last : α}
    {held : Option β} : List.Forall₂ R (before ++ [last]) held.toList ↔
      before = [] ∧ ∃ b, held = some b ∧ R last b := by
  cases before <;> cases held <;> simp

theorem setFlag_eq_ok_iff {flag : Flag} : draft.setFlag flag = .ok after ↔
    flag ∉ draft.flags ∧ after = { draft with flags := draft.flags ++ [flag] } := by
  unfold setFlag fail
  by_cases given : flag ∈ draft.flags
  · simp [given]
  · simp [given, eq_comm]

theorem setStride_eq_ok_iff {text : Bytes} : draft.setStride text = .ok after ↔
    draft.stride = none ∧ ∃ n, StrideText text n ∧ after = { draft with stride := some n } := by
  unfold setStride fail StrideText
  cases given : draft.stride with
  | some m => simp
  | none =>
    cases decoded : Utf8.decode? text with
    | none => simp
    | some cs =>
      cases value : Stride.read cs with
      | error cause => simp [value]
      | ok n => simp [value, eq_comm]

theorem setFile_eq_ok_iff {name : Bytes} : draft.setFile name = .ok after ↔
    draft.file = none ∧ after = { draft with file := some name } := by
  unfold setFile fail
  cases given : draft.file with
  | some other => simp
  | none => simp [eq_comm]

/-! A draft holds parts and one more exactly if it is what taking the last one makes of a draft that
holds the others. -/

section Concat

variable {parts : List Part}

theorem collects_flag_iff {given : Flag} : Collects (parts ++ [.flag given]) after ↔
    ∃ draft, Collects parts draft ∧ draft.setFlag given = .ok after := by
  constructor
  · rintro ⟨pending, flags, once, stride, file⟩
    simp only [filterMap_concat, Part.flag?, Part.stride?, Part.file?, Option.toList_some,
      Option.toList_none, List.append_nil] at flags stride file
    rw [← flags, ← List.concat_eq_append, List.nodup_concat] at once
    refine ⟨{ after with flags := parts.filterMap Part.flag? },
      ⟨pending, rfl, once.2, stride, file⟩, setFlag_eq_ok_iff.mpr ⟨once.1, ?_⟩⟩
    rw [flags]
  · rintro ⟨draft, ⟨pending, flags, once, stride, file⟩, taken⟩
    obtain ⟨fresh, rfl⟩ := setFlag_eq_ok_iff.mp taken
    refine ⟨pending, ?_, ?_, ?_, ?_⟩
    · rw [filterMap_concat, flags]
      rfl
    · rw [← List.concat_eq_append, List.nodup_concat]
      exact ⟨fresh, once⟩
    · simpa only [filterMap_concat, Part.stride?, Option.toList_none, List.append_nil] using stride
    · simpa only [filterMap_concat, Part.file?, Option.toList_none, List.append_nil] using file

theorem collects_stride_iff {text : Bytes} : Collects (parts ++ [.stride text]) after ↔
    ∃ draft, Collects parts draft ∧ draft.setStride text = .ok after := by
  constructor
  · rintro ⟨pending, flags, once, stride, file⟩
    simp only [filterMap_concat, Part.flag?, Part.stride?, Part.file?, Option.toList_some,
      Option.toList_none, List.append_nil] at flags stride file
    obtain ⟨none_before, n, is_n, spelled⟩ := forall₂_concat_toList_iff.mp stride
    refine ⟨{ after with stride := none }, ⟨pending, flags, once, ?_, file⟩,
      setStride_eq_ok_iff.mpr ⟨rfl, n, spelled, ?_⟩⟩
    · rw [none_before]
      exact .nil
    · rw [← is_n]
  · rintro ⟨draft, ⟨pending, flags, once, stride, file⟩, taken⟩
    obtain ⟨unset, n, spelled, rfl⟩ := setStride_eq_ok_iff.mp taken
    rw [unset] at stride
    refine ⟨pending, ?_, once, ?_, ?_⟩
    · simpa only [filterMap_concat, Part.flag?, Option.toList_none, List.append_nil] using flags
    · rw [filterMap_concat, List.forall₂_nil_right_iff.mp stride]
      exact .cons spelled .nil
    · simpa only [filterMap_concat, Part.file?, Option.toList_none, List.append_nil] using file

theorem collects_file_iff {name : Bytes} : Collects (parts ++ [.file name]) after ↔
    ∃ draft, Collects parts draft ∧ draft.setFile name = .ok after := by
  constructor
  · rintro ⟨pending, flags, once, stride, file⟩
    simp only [filterMap_concat, Part.flag?, Part.stride?, Part.file?, Option.toList_some,
      Option.toList_none, List.append_nil] at flags stride file
    obtain ⟨none_before, is_name⟩ := concat_eq_toList_iff.mp file
    refine ⟨{ after with file := none }, ⟨pending, flags, once, stride, none_before⟩,
      setFile_eq_ok_iff.mpr ⟨rfl, ?_⟩⟩
    rw [← is_name]
  · rintro ⟨draft, ⟨pending, flags, once, stride, file⟩, taken⟩
    obtain ⟨unset, rfl⟩ := setFile_eq_ok_iff.mp taken
    rw [unset] at file
    refine ⟨pending, ?_, once, ?_, ?_⟩
    · simpa only [filterMap_concat, Part.flag?, Option.toList_none, List.append_nil] using flags
    · simpa only [filterMap_concat, Part.stride?, Option.toList_none, List.append_nil] using stride
    · rw [filterMap_concat, file]
      rfl

theorem collects_concat_iff {part : Part} : Collects (parts ++ [part]) after ↔
    ∃ draft, Collects parts draft ∧ draft.add part = .ok after := by
  cases part with
  | flag given => exact collects_flag_iff
  | stride text => exact collects_stride_iff
  | file name => exact collects_file_iff

end Concat

/-- Taking parts one after another ends in the draft that holds them. -/
theorem foldlM_add_eq_ok_iff {parts : List Part} :
    parts.foldlM add {} = .ok draft ↔ Collects parts draft := by
  -- a draft says nothing about the parts to come, so the list grows at its end
  induction parts using List.reverseRecOn generalizing draft with
  | nil =>
    constructor
    · intro same
      cases same
      exact ⟨rfl, rfl, .nil, .nil, rfl⟩
    · rintro ⟨pending, flags, -, stride, file⟩
      obtain ⟨flags', stride', file', pending'⟩ := draft
      cases pending
      cases flags
      cases stride' <;> cases file' <;> simp_all
      rfl
  | append_singleton parts part ih =>
    rw [List.foldlM_append, bind_eq_ok_iff, collects_concat_iff]
    constructor
    · rintro ⟨draft', held, last⟩
      refine ⟨draft', ih.mp held, ?_⟩
      simpa only [List.foldlM_cons, List.foldlM_nil, bind_pure] using last
    · rintro ⟨draft', held, last⟩
      refine ⟨draft', ih.mpr held, ?_⟩
      simpa only [List.foldlM_cons, List.foldlM_nil, bind_pure] using last

/-- Two formats are asked for exactly if both flags are given. -/
theorem two_formats_iff {flags : List Flag} (once : flags.Nodup) :
    (∃ first second more, flags.filter (fun flag => flag = .all ∨ flag = .csv) =
      first :: second :: more) ↔ Flag.all ∈ flags ∧ Flag.csv ∈ flags := by
  constructor
  · rintro ⟨first, second, more, chosen⟩
    have distinct : first ≠ second := by
      have each := once.filter (fun flag => flag = .all ∨ flag = .csv)
      rw [chosen] at each
      exact fun same => (List.nodup_cons.mp each).1 (same ▸ List.mem_cons_self)
    have given : ∀ flag ∈ first :: second :: more, flag ∈ flags ∧ (flag = .all ∨ flag = .csv) := by
      intro flag mem
      rw [← chosen] at mem
      simpa using mem
    have first_in := given first List.mem_cons_self
    have second_in := given second (List.mem_cons_of_mem first List.mem_cons_self)
    obtain ⟨first_in, rfl | rfl⟩ := first_in <;> obtain ⟨second_in, rfl | rfl⟩ := second_in
    · exact absurd rfl distinct
    · exact ⟨first_in, second_in⟩
    · exact ⟨second_in, first_in⟩
    · exact absurd rfl distinct
  · rintro ⟨all, csv⟩
    have all : Flag.all ∈ flags.filter (fun flag => flag = .all ∨ flag = .csv) := by simp [all]
    have csv : Flag.csv ∈ flags.filter (fun flag => flag = .all ∨ flag = .csv) := by simp [csv]
    match chosen : flags.filter (fun flag => flag = .all ∨ flag = .csv) with
    | [] =>
      rw [chosen] at all
      cases all
    | [only] =>
      rw [chosen, List.mem_singleton] at all csv
      cases all.trans csv.symm
    | first :: second :: more => exact ⟨first, second, more, chosen⟩

theorem format_eq_iff {all csv : Prop} [Decidable all] [Decidable csv] {format : Format}
    (one : ¬ (all ∧ csv)) :
    (if all then .details else if csv then .csv else .verbatim) = format ↔
      (format = .details ↔ all) ∧ (format = .csv ↔ csv) := by
  by_cases is_all : all
  · have not_csv : ¬ csv := fun is_csv => one ⟨is_all, is_csv⟩
    cases format <;> simp [is_all, not_csv]
  · by_cases is_csv : csv <;> cases format <;> simp [is_all, is_csv]

theorem order_eq_iff {sort : Prop} [Decidable sort] {order : Order} :
    (if sort then .sequence else .file) = order ↔ (order = .sequence ↔ sort) := by
  by_cases is_sort : sort <;> cases order <;> simp [is_sort]

/-- The request of a draft, field by field. -/
theorem request_eq_ok_iff {request : Request} (once : draft.flags.Nodup) :
    draft.request = .ok request ↔
      ¬ (Flag.all ∈ draft.flags ∧ Flag.csv ∈ draft.flags) ∧
      request.file = draft.file.getD defaultFile ∧
      request.settings.stride = draft.stride.getD Settings.defaultStride ∧
      (request.format = .details ↔ Flag.all ∈ draft.flags) ∧
      (request.format = .csv ↔ Flag.csv ∈ draft.flags) ∧
      (request.settings.strict = true ↔ Flag.strict ∈ draft.flags) ∧
      (request.settings.order = .sequence ↔ Flag.sort ∈ draft.flags) := by
  unfold Draft.request
  split
  next first second more chosen =>
    constructor
    · intro asked
      cases asked
    · rintro ⟨one, -⟩
      exact absurd ((two_formats_iff once).mp ⟨first, second, more, chosen⟩) one
  next single =>
    have one : ¬ (Flag.all ∈ draft.flags ∧ Flag.csv ∈ draft.flags) := by
      intro both
      obtain ⟨first, second, more, chosen⟩ := (two_formats_iff once).mpr both
      exact single first second more chosen
    obtain ⟨file, format, stride, strict, order⟩ := request
    simp only [Except.ok.injEq, Request.mk.injEq, Settings.mk.injEq, List.mem_filter, true_or, or_true,
      decide_true, and_true, format_eq_iff one, order_eq_iff]
    constructor
    · rintro ⟨rfl, ⟨details, csv⟩, rfl, rfl, order⟩
      exact ⟨one, rfl, rfl, details, csv, decide_eq_true_iff, order⟩
    · rintro ⟨-, rfl, rfl, details, csv, strict, order⟩
      exact ⟨rfl, ⟨details, csv⟩, rfl, Bool.eq_iff_iff.mpr (decide_eq_true_iff.trans strict.symm), order⟩

end Draft

section Names

variable {parts : List Part}

theorem mem_filterMap_flag?_iff {given : Flag} :
    given ∈ parts.filterMap Part.flag? ↔ Part.flag given ∈ parts := by
  rw [List.mem_filterMap]
  constructor
  · rintro ⟨part, mem, found⟩
    cases part <;> cases found
    exact mem
  · intro mem
    exact ⟨_, mem, rfl⟩

theorem count_filterMap_flag? (given : Flag) :
    (parts.filterMap Part.flag?).count given = parts.count (.flag given) := by
  induction parts with
  | nil => rfl
  | cons part rest ih =>
    cases part with
    | flag other => simp [Part.flag?, List.count_cons, ih]
    | stride text => simp [List.filterMap_cons, Part.flag?, ih]
    | file name => simp [List.filterMap_cons, Part.flag?, ih]

theorem filter_file_eq :
    parts.filter (fun p => p matches .file _) = (parts.filterMap Part.file?).map .file := by
  induction parts with
  | nil => rfl
  | cons part rest ih =>
    cases part <;> simp [List.filterMap_cons, Part.file?, ih]

theorem filter_stride_eq :
    parts.filter (fun p => p matches .stride _) = (parts.filterMap Part.stride?).map .stride := by
  induction parts with
  | nil => rfl
  | cons part rest ih =>
    cases part <;> simp [List.filterMap_cons, Part.stride?, ih]

theorem names_file_iff {file : Bytes} :
    ((∃ name, parts.filter (fun p => p matches .file _) = [.file name] ∧ file = name) ∨
      (parts.filter (fun p => p matches .file _) = [] ∧ file = defaultFile)) ↔
      ∃ held : Option Bytes, parts.filterMap Part.file? = held.toList ∧
        file = held.getD defaultFile := by
  rw [filter_file_eq]
  constructor
  · rintro (⟨name, only, rfl⟩ | ⟨nothing, rfl⟩)
    · obtain ⟨other, found, same⟩ := List.map_eq_singleton_iff.mp only
      cases same
      exact ⟨some file, found, rfl⟩
    · exact ⟨none, List.map_eq_nil_iff.mp nothing, rfl⟩
  · rintro ⟨_ | name, found, rfl⟩
    · exact .inr ⟨List.map_eq_nil_iff.mpr found, rfl⟩
    · exact .inl ⟨file, List.map_eq_singleton_iff.mpr ⟨file, found, rfl⟩, rfl⟩

theorem names_stride_iff {stride : Nat} :
    ((∃ text, parts.filter (fun p => p matches .stride _) = [.stride text] ∧ StrideText text stride) ∨
      (parts.filter (fun p => p matches .stride _) = [] ∧ stride = Settings.defaultStride)) ↔
      ∃ held : Option Nat, List.Forall₂ StrideText (parts.filterMap Part.stride?) held.toList ∧
        stride = held.getD Settings.defaultStride := by
  rw [filter_stride_eq]
  constructor
  · rintro (⟨text, only, spelled⟩ | ⟨nothing, rfl⟩)
    · obtain ⟨other, found, same⟩ := List.map_eq_singleton_iff.mp only
      cases same
      refine ⟨some stride, ?_, rfl⟩
      rw [found]
      exact .cons spelled .nil
    · refine ⟨none, ?_, rfl⟩
      rw [List.map_eq_nil_iff.mp nothing]
      exact .nil
  · rintro ⟨_ | n, spelled, rfl⟩
    · exact .inr ⟨List.map_eq_nil_iff.mpr (List.forall₂_nil_right_iff.mp spelled), rfl⟩
    · obtain ⟨text, more, spelled, nothing, found⟩ := List.forall₂_cons_right_iff.mp spelled
      rw [List.forall₂_nil_right_iff.mp nothing] at found
      exact .inl ⟨text, List.map_eq_singleton_iff.mpr ⟨text, found, rfl⟩, spelled⟩

/-- Parts name the requests of the drafts that hold them. -/
theorem names_iff {request : Request} :
    Names parts request ↔ ∃ draft, Draft.Collects parts draft ∧ draft.request = .ok request := by
  have once_iff : (∀ flag, parts.count (.flag flag) ≤ 1) ↔ (parts.filterMap Part.flag?).Nodup := by
    simp only [List.nodup_iff_count_le_one, count_filterMap_flag?]
  constructor
  · intro named
    have once := once_iff.mp named.flags_once
    obtain ⟨file, file_held, is_file⟩ := names_file_iff.mp named.file
    obtain ⟨stride, stride_held, is_stride⟩ := names_stride_iff.mp named.stride
    refine ⟨⟨parts.filterMap Part.flag?, stride, file, none⟩,
      ⟨rfl, rfl, once, stride_held, file_held⟩, (Draft.request_eq_ok_iff once).mpr ?_⟩
    simp only [mem_filterMap_flag?_iff]
    exact ⟨named.one_format, is_file, is_stride, named.details, named.csv, named.strict, named.order⟩
  · rintro ⟨draft, held, asked⟩
    have fields := (Draft.request_eq_ok_iff held.flags_once).mp asked
    rw [← held.flags] at fields
    simp only [mem_filterMap_flag?_iff] at fields
    obtain ⟨one, file, stride, details, csv, strict, order⟩ := fields
    exact {
      flags_once := once_iff.mpr (held.flags ▸ held.flags_once)
      one_format := one
      file := names_file_iff.mpr ⟨draft.file, held.file, file⟩
      stride := names_stride_iff.mpr ⟨draft.stride, held.stride, stride⟩
      details, csv, strict, order }

end Names

end RamLog.Command
