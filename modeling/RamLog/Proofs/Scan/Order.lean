import Mathlib.Data.List.Nodup
import RamLog.Proofs.Scan.Account

/-!
# The order of records

In the order of the dump, records lie at ascending offsets, so no two of them are the same. In the
order of ids, records with different ids have one arrangement only: `arrange_sequence_eq` finds it
from any list of the same records whose ids ascend.
-/
namespace RamLog

theorem Window.offset_of_mem_record? {w : Window} {r : Record} (found : r ∈ w.record?) :
    r.offset = w.offset := by
  rw [Option.mem_def, Window.record?] at found
  split at found
  · contradiction
  · cases found
    rfl

/-- Each slot begins after the one before it. -/
theorem Dump.pairwise_offset_windows {stride : Nat} (positive : 0 < stride) (data : Bytes) :
    (windows stride data).Pairwise (·.offset < ·.offset) := by
  have offsets : ((windows stride data).map (·.offset)).Pairwise (· < ·) := by
    rw [windows, map_offset_windowsFrom, List.pairwise_map]
    refine List.Pairwise.imp ?_ List.pairwise_lt_range
    intro i j before
    exact Nat.add_lt_add_left (Nat.mul_lt_mul_of_pos_right before positive) _
  exact List.pairwise_map.mp offsets

/-- Records found in the order of the dump lie at ascending offsets. -/
theorem Dump.pairwise_offset_records {stride : Nat} (positive : 0 < stride) (data : Bytes) :
    ((windows stride data).filterMap Window.record?).Pairwise (·.offset < ·.offset) := by
  rw [List.pairwise_filterMap]
  refine List.Pairwise.imp ?_ (pairwise_offset_windows positive data)
  intro v w before r foundR q foundQ
  rw [Window.offset_of_mem_record? foundR, Window.offset_of_mem_record? foundQ]
  exact before

/-- The notes at the end of a scan count the records, in whatever order they are. -/
theorem Scan.endNotes_order (settings : Settings) (order : Order) (data : Bytes) :
    endNotes (.ofDump { settings with order } data) = endNotes (.ofDump settings data) := by
  have count := fun order : Order => (perm_arrange order
    ((Dump.windows settings.stride data).filterMap Window.record?)).length_eq
  simp only [endNotes, Journal.ofDump, count]

/-- No two records of a dump are the same. -/
theorem Dump.nodup_records {stride : Nat} (positive : 0 < stride) (data : Bytes) :
    ((windows stride data).filterMap Window.record?).Nodup := by
  refine List.Pairwise.imp ?_ (pairwise_offset_records positive data)
  rintro r _ before rfl
  exact Nat.lt_irrefl _ before

theorem Record.id_le_trans (a b c : Record) (ab : decide (a.id ≤ b.id) = true)
    (bc : decide (b.id ≤ c.id) = true) : decide (a.id ≤ c.id) = true :=
  decide_eq_true (UInt32.le_trans (of_decide_eq_true ab) (of_decide_eq_true bc))

theorem Record.id_le_total (a b : Record) :
    (decide (a.id ≤ b.id) || decide (b.id ≤ a.id)) = true := by
  rw [Bool.or_eq_true, decide_eq_true_eq, decide_eq_true_eq]
  exact UInt32.le_total a.id b.id

/-- In the order of ids, ids never descend. -/
theorem Order.pairwise_id_arrange_sequence (records : List Record) :
    (sequence.arrange records).Pairwise fun a b => decide (a.id ≤ b.id) = true :=
  List.pairwise_mergeSort Record.id_le_trans Record.id_le_total records

/-- Records whose ids ascend are what arranging them by id gives, whatever order they had. -/
theorem Order.arrange_sequence_eq {records sorted : List Record} (same : records.Perm sorted)
    (ascending : sorted.Pairwise (·.id < ·.id)) : sequence.arrange records = sorted := by
  have weakly : sorted.Pairwise fun a b => decide (a.id ≤ b.id) = true :=
    ascending.imp fun less => decide_eq_true (UInt32.le_of_lt less)
  have distinct : (sorted.map (·.id)).Nodup := by
    rw [List.Nodup, List.pairwise_map]
    exact ascending.imp UInt32.ne_of_lt
  have permuted : (sequence.arrange records).Perm sorted := (Scan.perm_arrange _ records).trans same
  refine List.Perm.eq_of_pairwise ?_ (pairwise_id_arrange_sequence records) weakly permuted
  intro a b memberA memberB ab ba
  have sameId := UInt32.le_antisymm (of_decide_eq_true ab) (of_decide_eq_true ba)
  exact List.inj_on_of_nodup_map distinct (permuted.mem_iff.mp memberA) memberB sameId

end RamLog
