import RamLog.Command.Line

/-!
# The settings of a run

The slot length of a run that a command line asks for was read from an argument or is the one for
want of an argument; either way a slot has room for text. The reader of the command line carries
this along as an invariant of its drafts (`Wide`), step by step.
-/
namespace RamLog.Command

open Text

/-- A step and what follows it succeed together. -/
theorem bind_eq_ok_iff {α β : Type} {first : Except Stop α} {rest : α → Except Stop β} {b : β} :
    first >>= rest = .ok b ↔ ∃ a, first = .ok a ∧ rest a = .ok b := by
  constructor
  · intro whole
    cases first with
    | error stop => cases whole
    | ok a => exact ⟨a, rfl, whole⟩
  · rintro ⟨a, rfl, h⟩
    exact h

/-- A slot length that is read leaves room for text. -/
theorem Stride.lt_of_read {text : List Char} {n : Nat} (h : read text = .ok n) :
    Record.idLength < n := by
  unfold read at h
  split at h
  · cases h
  · split at h
    · cases h
    next large =>
      cases h
      exact Nat.lt_of_not_le large

namespace Draft

variable {draft after : Draft}

/-- The slot length, once there is one, leaves room for text. -/
def Wide (draft : Draft) : Prop := ∀ n, draft.stride = some n → Record.idLength < n

theorem Wide.setStride {text : Bytes} (h : draft.setStride text = .ok after) : after.Wide := by
  unfold Draft.setStride at h
  split at h
  · cases h
  · split at h
    · cases h
    · split at h
      · cases h
      next n parsed =>
        cases h
        intro m same
        cases same
        exact Stride.lt_of_read parsed

theorem Wide.settle (wide : draft.Wide) (h : draft.settle = .ok after) : after.Wide := by
  unfold Draft.settle at h
  dsimp only at h
  split at h
  · cases h
    exact wide
  · cases h
  · exact setStride h
  · split at h
    · cases h
    · cases h
      exact wide

theorem Wide.setFlag {flag : Flag} (wide : draft.Wide) (h : draft.setFlag flag = .ok after) :
    after.Wide := by
  unfold Draft.setFlag at h
  split at h
  · cases h
  · cases h
    exact wide

theorem Wide.takeName {name : Bytes} (wide : draft.Wide) (h : draft.takeName name = .ok after) :
    after.Wide := by
  unfold Draft.takeName at h
  split at h
  · cases h
  · obtain ⟨settled, settling, h⟩ := bind_eq_ok_iff.mp h
    cases h
    have settledWide : settled.Wide := wide.settle settling
    exact settledWide

theorem Wide.takeSwitch {switch : Switch} (wide : draft.Wide)
    (h : draft.takeSwitch switch = .ok after) : after.Wide := by
  obtain ⟨settled, settling, h⟩ := bind_eq_ok_iff.mp h
  have settledWide := wide.settle settling
  cases switch with
  | flag flag => exact settledWide.setFlag h
  | stride =>
    cases h
    exact settledWide
  | help => cases h
  | version => cases h

theorem Wide.takeLong {name : Bytes} {value : Option Bytes} (wide : draft.Wide)
    (h : draft.takeLong name value = .ok after) : after.Wide := by
  unfold Draft.takeLong at h
  split at h
  · cases h
  · exact wide.takeSwitch h
  · obtain ⟨settled, _, h⟩ := bind_eq_ok_iff.mp h
    exact setStride h
  · cases h

theorem Wide.takeLetters {letters : List (Option Char)} (wide : draft.Wide)
    (h : draft.takeLetters letters = .ok after) : after.Wide := by
  induction letters generalizing draft with
  | nil =>
    cases h
    exact wide
  | cons letter rest ih =>
    cases letter with
    | none => cases h
    | some c =>
      unfold Draft.takeLetters at h
      split at h
      · cases h
      · obtain ⟨next, taken, h⟩ := bind_eq_ok_iff.mp h
        exact ih (wide.takeSwitch taken) h

theorem Wide.takeWord {text : Bytes} (wide : draft.Wide) (h : draft.takeWord text = .ok after) :
    after.Wide := by
  unfold Draft.takeWord at h
  split at h
  · cases h
    exact wide
  · exact wide.takeName h

theorem Wide.readNames {names : List Bytes} (wide : draft.Wide)
    (h : draft.readNames names = .ok after) : after.Wide := by
  induction names generalizing draft with
  | nil => exact wide.settle h
  | cons name rest ih =>
    obtain ⟨next, taken, h⟩ := bind_eq_ok_iff.mp h
    exact ih (wide.takeName taken) h

theorem Wide.readArguments {arguments : List Bytes} (wide : draft.Wide)
    (h : draft.readArguments arguments = .ok after) : after.Wide := by
  induction arguments generalizing draft with
  | nil => exact wide.settle h
  | cons argument rest ih =>
    unfold Draft.readArguments at h
    split at h
    · exact wide.readNames h
    · obtain ⟨next, taken, h⟩ := bind_eq_ok_iff.mp h
      exact ih (wide.takeLong taken) h
    · obtain ⟨next, taken, h⟩ := bind_eq_ok_iff.mp h
      exact ih (wide.takeLetters taken) h
    · obtain ⟨next, taken, h⟩ := bind_eq_ok_iff.mp h
      exact ih (wide.takeWord taken) h

theorem Wide.request {request : Request} (wide : draft.Wide) (h : draft.request = .ok request) :
    Record.idLength < request.settings.stride := by
  unfold Draft.request at h
  split at h
  · cases h
  · cases h
    show Record.idLength < draft.stride.getD Settings.defaultStride
    cases given : draft.stride with
    | none => decide
    | some n => exact wide n given

end Draft

/-- Every run that a command line asks for reads slots with room for text. -/
theorem idLength_lt_of_read {arguments : List Bytes} {request : Request}
    (accepted : read arguments = .run request) : Record.idLength < request.settings.stride := by
  unfold read at accepted
  split at accepted
  next asked reading =>
    cases accepted
    obtain ⟨draft, reading, requested⟩ := bind_eq_ok_iff.mp reading
    have start : ({} : Draft).Wide := by
      intro n given
      cases given
    exact (start.readArguments reading).request requested
  · cases accepted
  · cases accepted
  · cases accepted

end RamLog.Command
