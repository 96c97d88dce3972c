import RamLog.Proofs.Scan.Account

/-!
# When a scan fails

Whether a scan fails, and how, is decided by the stride, the length of the dump and whether the
settings are strict; no octet of the dump has a say. `leftover?_eq` gives the octets left over in
these numbers, and `scan_fails_iff` the faults, together with what a strict scan makes of a dump
that a lenient one accepts.
-/
namespace RamLog

namespace Dump

variable {stride : Nat}

/-- What is left over are the octets past the last whole stride, if the dump is longer than one. -/
theorem leftover?_eq (positive : 0 < stride) (data : Bytes) :
    leftover? stride data =
      if stride < data.length ∧ data.length % stride ≠ 0 then
        some ⟨data.length / stride * stride, data.length % stride⟩
      else none := by
  rw [leftover?, slotCount, start_eq]
  by_cases enough : stride ≤ data.length
  · have rest : (data.length - stride) % stride = data.length % stride :=
      (Nat.mod_eq_sub_mod enough).symm
    have slots : data.length / stride = (data.length - stride) / stride + 1 :=
      Nat.div_eq_sub_div positive enough
    have offset : stride + (data.length - stride) / stride * stride =
        data.length / stride * stride := by
      rw [slots, Nat.succ_mul, Nat.add_comm]
    rw [rest, offset]
    by_cases whole : data.length % stride = 0
    · rw [if_pos whole, if_neg fun both => both.2 whole]
    · have longer : stride < data.length := by
        refine Nat.lt_of_le_of_ne enough fun same => whole ?_
        rw [← same, Nat.mod_self]
      rw [if_neg whole, if_pos ⟨longer, whole⟩]
  · have short : data.length - stride = 0 := by omega
    rw [short, Nat.zero_mod, if_pos rfl, if_neg fun both => enough (Nat.le_of_lt both.1)]

theorem leftover?_eq_some_iff (positive : 0 < stride) (data : Bytes) (rest : Leftover) :
    leftover? stride data = some rest ↔ stride < data.length ∧ data.length % stride ≠ 0 ∧
      rest = ⟨data.length / stride * stride, data.length % stride⟩ := by
  rw [leftover?_eq positive]
  split
  next cut => simp [cut, eq_comm]
  next whole =>
    constructor
    · intro found
      cases found
    · rintro ⟨longer, cut, _⟩
      exact absurd ⟨longer, cut⟩ whole

end Dump

namespace Scan

variable {settings : Settings} {data : Bytes}

/-- A scan is refused for its stride exactly when that leaves no room for text, whatever the
dump. -/
theorem result_eq_strideTooSmall_iff :
    (∃ stride least, (scan settings data).result = .error (.strideTooSmall stride least)) ↔
      settings.stride ≤ Record.idLength := by
  constructor
  · rintro ⟨stride, least, failed⟩
    refine Nat.le_of_not_lt fun wide => ?_
    obtain ⟨_, _, _, truncated⟩ := eq_truncated_of_result wide failed
    cases truncated
  · intro narrow
    exact ⟨_, _, by rw [scan_eq_strideTooSmall settings data narrow]⟩

/-- With room for text, a scan fails exactly when it is strict and the dump ends inside a slot. -/
theorem result_eq_error_iff (wide : Record.idLength < settings.stride) (fault : Fault) :
    (scan settings data).result = .error fault ↔
      settings.strict = true ∧ settings.stride < data.length ∧ data.length % settings.stride ≠ 0 ∧
        fault = .truncated (data.length / settings.stride * settings.stride)
          (data.length % settings.stride) settings.stride := by
  have positive : 0 < settings.stride := Nat.zero_lt_of_lt wide
  constructor
  · intro failed
    obtain ⟨strict, rest, found, truncated⟩ := eq_truncated_of_result wide failed
    obtain ⟨longer, cut, rfl⟩ := (Dump.leftover?_eq_some_iff positive data rest).mp found
    exact ⟨strict, longer, cut, truncated⟩
  · rintro ⟨strict, longer, cut, rfl⟩
    have found := (Dump.leftover?_eq_some_iff positive data _).mpr ⟨longer, cut, rfl⟩
    rw [scan_eq_truncated settings data _ wide strict found]

end Scan

/-- A scan fails for its stride or, when strict, for a dump that ends inside a slot, and for nothing
else. A strict scan does what the lenient one does when that leaves nothing out, and otherwise its
fault names what the lenient one leaves out. -/
theorem scan_fails_iff (settings : Settings) (data : Bytes) :
    ((∃ stride least, (scan settings data).result = .error (.strideTooSmall stride least)) ↔
      settings.stride ≤ 4) ∧
    ((∃ offset length stride,
        (scan settings data).result = .error (.truncated offset length stride)) ↔
      4 < settings.stride ∧ settings.strict = true ∧
        settings.stride < data.length ∧ data.length % settings.stride ≠ 0) ∧
    (∀ fault, (scan settings data).result = .error fault →
      (∃ stride least, fault = .strideTooSmall stride least) ∨
        ∃ offset length stride, fault = .truncated offset length stride) ∧
    (4 < settings.stride →
      let strict := scan { settings with strict := true } data
      let lenient := scan { settings with strict := false } data
      ∃ journal, lenient.result = .ok journal ∧
        (journal.leftover = none → strict = lenient) ∧
        ∀ rest, journal.leftover = some rest →
          ∃ fault, strict.result = .error fault ∧
            fault = .truncated rest.offset rest.length settings.stride ∧
            fault.message =
              s!"Truncated record at offset {rest.offset}: {rest.length} of {settings.stride} bytes" ∧
            rest.offset = data.length / settings.stride * settings.stride ∧
            rest.length = data.length % settings.stride ∧
            0 < rest.length ∧ rest.length < settings.stride) := by
  refine ⟨Scan.result_eq_strideTooSmall_iff, ⟨?_, ?_⟩, ?_, ?_⟩
  · rintro ⟨offset, length, stride, failed⟩
    have wide : Record.idLength < settings.stride := by
      refine Nat.lt_of_not_le fun narrow => ?_
      rw [Scan.scan_eq_strideTooSmall settings data narrow] at failed
      cases failed
    obtain ⟨strict, longer, cut, _⟩ := (Scan.result_eq_error_iff wide _).mp failed
    exact ⟨wide, strict, longer, cut⟩
  · rintro ⟨wide, strict, longer, cut⟩
    exact ⟨_, _, _, (Scan.result_eq_error_iff wide _).mpr ⟨strict, longer, cut, rfl⟩⟩
  · intro fault failed
    rcases Nat.lt_or_ge Record.idLength settings.stride with wide | narrow
    · obtain ⟨_, _, _, truncated⟩ := (Scan.result_eq_error_iff wide fault).mp failed
      exact .inr ⟨_, _, _, truncated⟩
    · rw [Scan.scan_eq_strideTooSmall settings data narrow] at failed
      exact .inl ⟨_, _, (Except.error.inj failed).symm⟩
  · intro wide strict lenient
    have positive : 0 < settings.stride := Nat.zero_lt_of_lt wide
    have journal : ∀ strict, Journal.ofDump { settings with strict } data = .ofDump settings data :=
      fun _ => rfl
    have accepted := Scan.scan_eq_ok { settings with strict := false } data wide (by simp)
    refine ⟨_, congrArg Noted.result accepted, ?_, ?_⟩
    · intro whole
      have alsoStrict := Scan.scan_eq_ok { settings with strict := true } data wide fun _ => whole
      rw [journal] at alsoStrict accepted
      exact alsoStrict.trans accepted.symm
    · intro rest found
      obtain ⟨_, cut, rfl⟩ := (Dump.leftover?_eq_some_iff positive data rest).mp found
      have refused := Scan.scan_eq_truncated { settings with strict := true } data _ wide rfl found
      exact ⟨_, congrArg Noted.result refused, rfl, rfl, rfl, rfl, Nat.pos_of_ne_zero cut,
        Nat.mod_lt _ positive⟩

/-- Slots of five octets: a dump of two strides, and one that is two octets longer. -/
theorem scan_fails_iff_cut :
    4 < 5 ∧
      scan { stride := 5, strict := true } (List.replicate 10 1) =
        scan { stride := 5, strict := false } (List.replicate 10 1) ∧
      ∃ fault, (scan { stride := 5, strict := true } (List.replicate 12 1)).result = .error fault ∧
        fault.message = "Truncated record at offset 10: 2 of 5 bytes" := by
  have wide : 4 < 5 := by decide
  have fits : (scan { stride := 5 } (List.replicate 10 1)).result = .ok
      { records := [⟨5, 0x01010101, [1]⟩], stride := 5, slots := 1 } := rfl
  have longer : (scan { stride := 5 } (List.replicate 12 1)).result = .ok
      { records := [⟨5, 0x01010101, [1]⟩], stride := 5, slots := 1, leftover := some ⟨10, 2⟩ } :=
    rfl
  obtain ⟨whole, accepted, same, _⟩ :=
    (scan_fails_iff { stride := 5 } (List.replicate 10 1)).2.2.2 wide
  obtain ⟨cut, left, _, refused⟩ :=
    (scan_fails_iff { stride := 5 } (List.replicate 12 1)).2.2.2 wide
  rw [fits] at accepted
  rw [longer] at left
  cases accepted
  cases left
  obtain ⟨fault, failed, _, message, _⟩ := refused ⟨10, 2⟩ rfl
  exact ⟨wide, same rfl, fault, failed, message⟩

end RamLog
