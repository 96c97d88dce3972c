import Mathlib.Logic.Function.Iterate
import RamLog.Files

/-!
# The name of a readable file

A path that leads to a file ends in the name of the file: a walk that ends with a slash, a dot or
two dots ends in a directory. So what stands behind the last slash is the file name of the path
(`Files.endsIn_of_read`). The walk keeps the invariant that it stands below directories only
(`Rooted`). A path that leads to no file is reported as neither malformed nor a broken pipe
(`Files.kind_of_read`).
-/
namespace RamLog

/-- All that a place lies in is a directory. -/
def Files.Rooted (files : Files) (place : Place) : Prop :=
  ∀ n, files.entry? (Place.parent^[n + 1] place) = some .directory

theorem Place.parent_of_child? {place child : Place} {name : Name}
    (down : place.child? name = some child) : child.parent = place := by
  cases place with
  | inside names =>
    cases down
    cases names with
    | nil => rfl
    | cons first rest =>
      show Place.inside ((first :: rest ++ [name]).dropLast) = .inside (first :: rest)
      rw [List.dropLast_concat]
  | absolute names =>
    cases down
    show Place.absolute ((names ++ [name]).dropLast) = .absolute names
    rw [List.dropLast_concat]
  | above => cases down

namespace Files

variable {files : Files} {place : Place}

theorem Rooted.parent (rooted : files.Rooted place) : files.Rooted place.parent := fun n =>
  rooted (n + 1)

theorem Rooted.child {child : Place} {name : Name} (rooted : files.Rooted place)
    (here : files.entry? place = some .directory) (down : place.child? name = some child) :
    files.Rooted child := by
  intro n
  rw [Function.iterate_succ_apply, Place.parent_of_child? down]
  cases n with
  | zero => exact here
  | succ n => exact rooted n

/-- Every path is walked from a place below directories only. -/
theorem rooted_start (files : Files) :
    files.Rooted (.inside []) ∧ files.Rooted (.absolute []) := by
  constructor
  · intro n
    have top : Place.parent .above = .above := rfl
    rw [Function.iterate_succ_apply]
    show files.entry? (Place.parent^[n] .above) = some .directory
    rw [Function.iterate_fixed top]
    rfl
  · intro n
    have root : Place.parent (.absolute []) = .absolute [] := rfl
    rw [Function.iterate_fixed root]
    rfl

/-- A walk that ends at a file ends with the name of a file. -/
theorem getLast?_of_walk {names : List Name} {content : Bytes} (rooted : files.Rooted place)
    (some_name : names ≠ []) (walked : files.walk place names = .ok (.file content)) :
    ∃ name, names.getLast? = some name ∧ name ≠ [] ∧ name ≠ Path.here ∧ name ≠ Path.up := by
  induction names generalizing place with
  | nil => contradiction
  | cons name rest ih =>
    -- A walk that has come to its end stands at what lies there.
    have ended : ∀ {stop : Place}, files.entry? stop = some .directory →
        files.walk stop [] ≠ .ok (.file content) := by
      intro stop found
      simp [walk, found]
    unfold walk at walked
    split at walked
    · cases walked
    · cases walked
    next here =>
      split at walked
      next stay =>
        cases rest with
        | nil => exact absurd walked (ended here)
        | cons next rest => simpa using ih rooted (by simp) walked
      next step =>
        split at walked
        next up =>
          cases rest with
          | nil => exact absurd walked (ended (rooted 0))
          | cons next rest => simpa using ih rooted.parent (by simp) walked
        next notUp =>
          split at walked
          · cases walked
          · split at walked
            next child down =>
              cases rest with
              | nil => exact ⟨name, rfl, fun e => step (.inl e), fun e => step (.inr e), notUp⟩
              | cons next rest => simpa using ih (rooted.child here down) (by simp) walked
            · cases walked

end Files

/-- A walk fails for want of an entry or of a directory, or at a name that is too long. -/
theorem Files.kind_of_walk {files : Files} {place : Place} {names : List Name} {cause : FileFault}
    (failed : files.walk place names = .error cause) : cause.kind = .other := by
  induction names generalizing place with
  | nil =>
    unfold walk at failed
    split at failed
    · contradiction
    · obtain rfl := Except.error.inj failed
      rfl
  | cons name rest ih =>
    unfold walk at failed
    split at failed
    · obtain rfl := Except.error.inj failed
      rfl
    · obtain rfl := Except.error.inj failed
      rfl
    · split at failed
      · exact ih failed
      · split at failed
        · exact ih failed
        · split at failed
          · obtain rfl := Except.error.inj failed
            rfl
          · split at failed
            · exact ih failed
            · obtain rfl := Except.error.inj failed
              rfl

namespace Path

theorem names_ne_nil (path : Bytes) : names path ≠ [] := by
  unfold names
  split
  · simp
  · split
    · simp
    · split <;> simp

/-- The name that a path ends in is its last step. -/
theorem EndsIn.fileName?_eq {path : Bytes} {name : Name} (ends : EndsIn path name) :
    fileName? path = some name := by
  obtain ⟨last, some_octet, notHere, notUp⟩ := ends
  have step : (steps path).getLast? = some name := by
    obtain ⟨front, parts⟩ := List.getLast?_eq_some_iff.mp last
    rw [steps, parts, List.filter_append]
    simp [some_octet, notHere]
  rw [fileName?, step]
  simp [notUp]

end Path

namespace Files

variable {files : Files} {path : Bytes}

/-- A path that can be read ends in the name of a file. -/
theorem endsIn_of_read {content : Bytes} (readable : files.read path = .ok content) :
    ∃ name, Path.EndsIn path name := by
  unfold read at readable
  split at readable
  · cases readable
  · dsimp only at readable
    split at readable
    · cases readable
    · cases readable
    next walked =>
      have rooted : files.Rooted
          (if path.head? = some Path.slash then .absolute [] else .inside []) := by
        split
        · exact files.rooted_start.2
        · exact files.rooted_start.1
      obtain ⟨name, last, file⟩ := getLast?_of_walk rooted (Path.names_ne_nil path) walked
      exact ⟨name, last, file⟩

/-- A path that cannot be read is reported in the system's own kind. -/
theorem kind_of_read {cause : FileFault} (unreadable : files.read path = .error cause) :
    cause.kind = .other := by
  unfold read at unreadable
  split at unreadable
  · obtain rfl := Except.error.inj unreadable
    rfl
  · dsimp only at unreadable
    split at unreadable
    next failed =>
      obtain rfl := Except.error.inj unreadable
      exact kind_of_walk failed
    · obtain rfl := Except.error.inj unreadable
      rfl
    · contradiction

end Files

end RamLog
