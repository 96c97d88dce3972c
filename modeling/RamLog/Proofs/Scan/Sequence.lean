import RamLog.Proofs.Scan.Influence
import RamLog.Proofs.Scan.Order

/-!
# The order of the dump and the order of ids

The sort by id is stable: the records of one id stay as they stood (`filter_arrange`). Records that
stood at ascending offsets are therefore sorted by id and, within an id, by offset, and no other
arrangement of them is (`eq_arrange_sequence_iff`). The order has no influence on anything else that
a scan finds or notes (`scan_sequence`).
-/
namespace RamLog

/-- Whether a record goes before another by id, or by offset if they share an id. -/
def Record.Precedes (a b : Record) : Prop := a.id < b.id ∨ a.id = b.id ∧ a.offset < b.offset

/-- No two records go before each other. -/
theorem Record.Precedes.asymm {a b : Record} (before : a.Precedes b) : ¬ b.Precedes a := by
  intro after
  rcases before with less | ⟨same, less⟩
  · rcases after with more | ⟨same, _⟩
    · exact UInt32.lt_asymm less more
    · rw [same] at less
      exact UInt32.lt_irrefl _ less
  · rcases after with more | ⟨_, more⟩
    · rw [same] at more
      exact UInt32.lt_irrefl _ more
    · exact Nat.lt_asymm less more

namespace Order

/-- Records of one id keep the order they had. -/
theorem filter_arrange (order : Order) (records : List Record) (id : UInt32) :
    (order.arrange records).filter (·.id = id) = records.filter (·.id = id) := by
  cases order with
  | file => rfl
  | sequence =>
    have tied : (records.filter (·.id = id)).Pairwise fun a b => decide (a.id ≤ b.id) = true := by
      apply List.pairwise_of_forall_mem_list
      intro a memberA b memberB
      have idA : a.id = id := of_decide_eq_true (List.mem_filter.mp memberA).2
      have idB : b.id = id := of_decide_eq_true (List.mem_filter.mp memberB).2
      rw [idA, idB]
      exact decide_eq_true (UInt32.le_refl id)
    -- They are sorted as they stand, so a stable sort keeps them as a sublist, and none is added.
    have kept : (records.filter (·.id = id)).Sublist (sequence.arrange records) :=
      List.sublist_mergeSort Record.id_le_trans Record.id_le_total tied List.filter_sublist
    have inside := kept.filter (·.id = id)
    rw [List.filter_filter] at inside
    simp only [Bool.and_self] at inside
    have count := ((Scan.perm_arrange sequence records).filter (·.id = id)).length_eq
    exact (inside.eq_of_length count.symm).symm

/-- Records that stood at ascending offsets are sorted by id, and within an id by offset. -/
theorem pairwise_precedes_arrange {records : List Record}
    (ascending : records.Pairwise (·.offset < ·.offset)) :
    (sequence.arrange records).Pairwise Record.Precedes := by
  rw [List.pairwise_iff_forall_sublist]
  intro a b pair
  have ids := List.pairwise_iff_forall_sublist.mp (pairwise_id_arrange_sequence records) pair
  rcases UInt32.lt_or_eq_of_le (of_decide_eq_true ids) with less | same
  · exact .inl less
  · have ofB : ∀ r ∈ [a, b], decide (r.id = b.id) = true := by simp [same]
    have stood : [a, b].Sublist records := by
      have ofId := pair.filter (·.id = b.id)
      rw [filter_arrange, List.filter_eq_self.mpr ofB] at ofId
      exact ofId.trans List.filter_sublist
    exact .inr ⟨same, List.pairwise_iff_forall_sublist.mp ascending stood⟩

/-- Of records that stood at ascending offsets, one arrangement only is sorted by id and offset. -/
theorem eq_arrange_sequence_iff {records : List Record}
    (ascending : records.Pairwise (·.offset < ·.offset)) (sorted : List Record) :
    sorted = sequence.arrange records ↔ sorted.Perm records ∧ sorted.Pairwise Record.Precedes := by
  constructor
  · rintro rfl
    exact ⟨Scan.perm_arrange sequence records, pairwise_precedes_arrange ascending⟩
  · rintro ⟨permuted, precedes⟩
    refine List.Perm.eq_of_pairwise ?_ precedes (pairwise_precedes_arrange ascending)
      (permuted.trans (Scan.perm_arrange sequence records).symm)
    intro a b _ _ before after
    exact absurd after before.asymm

end Order

/-- Scanning in the order of ids notes and finds what scanning in the order of the dump does, or fails
alike. The records of the dump lie at ascending offsets, and the others are their one arrangement
that is sorted by id and, where records share an id, by offset. -/
theorem scan_sequence (settings : Settings) (data : Bytes) :
    Alike (fun file sequence =>
        sequence.header = file.header ∧ sequence.stride = file.stride ∧
        sequence.slots = file.slots ∧ sequence.emptySlots = file.emptySlots ∧
        sequence.leftover = file.leftover ∧
        file.records.Pairwise (·.offset < ·.offset) ∧
        ∀ sorted, sorted = sequence.records ↔
          sorted.Perm file.records ∧ sorted.Pairwise Record.Precedes)
      (scan { settings with order := .file } data)
      (scan { settings with order := .sequence } data) := by
  by_cases narrow : settings.stride ≤ Record.idLength
  · rw [Scan.scan_eq_strideTooSmall { settings with order := .file } data narrow,
      Scan.scan_eq_strideTooSmall { settings with order := .sequence } data narrow]
    exact .failed _ _
  · have wide : Record.idLength < settings.stride := Nat.lt_of_not_le narrow
    have ascending := Dump.pairwise_offset_records (Nat.zero_lt_of_lt wide) data
    have notes := Scan.endNotes_order { settings with order := .file } .sequence data
    exact Scan.alike wide rfl rfl rfl rfl notes
      ⟨rfl, rfl, rfl, rfl, rfl, ascending, Order.eq_arrange_sequence_iff ascending⟩

end RamLog
