import RamLog.Command.Stride
import RamLog.Proofs.Text.Numerals
import RamLog.Scan

/-!
# The slot lengths that are read

A numeral is digits after at most one plus sign (`Numeral`). The reader works through its digits with
the value of those it has passed, so it finds the value of the whole or that it does not fit a word
(`readDigits_of_digits`). It accepts the numerals of the numbers that the settings of a scan accept, and
gives each other text a fault of its kind (`reply_numerals`).
-/
namespace RamLog.Command.Stride

open Text

/-- The numerals of a number: decimal digits, at least one, after at most one plus sign. -/
inductive Numeral : List Char → Nat → Prop
  | plain {digits : List Char} (some_digit : digits ≠ [])
      (all : ∀ c ∈ digits, c.isDigit = true) : Numeral digits (Decimal.value 0 digits)
  | signed {digits : List Char} (some_digit : digits ≠ [])
      (all : ∀ c ∈ digits, c.isDigit = true) : Numeral ('+' :: digits) (Decimal.value 0 digits)

def reply (text : List Char) : Except String Nat := (read text).mapError StrideFault.message

/-! ## Digits -/

/-- Digits are read as their value, unless that does not fit a word. -/
theorem readDigits_of_digits {high : Nat} {digits : List Char} (fits : high < limit)
    (all : ∀ c ∈ digits, c.isDigit = true) :
    readDigits high digits = if Decimal.value high digits < limit
      then .ok (Decimal.value high digits) else .error .tooLarge := by
  induction digits generalizing high with
  | nil => exact (if_pos fits).symm
  | cons c rest ih =>
    have digit := Decimal.digit?_of_isDigit (all c (by simp))
    rw [readDigits, Decimal.value, digit, Option.getD_some]
    dsimp only
    split
    next within => exact ih within fun d member => all d (by simp [member])
    next beyond =>
      -- The value passed so far is already too large, and it only grows.
      have grown := Decimal.le_value (10 * high + (c.toNat - '0'.toNat)) rest
      exact (if_neg (by omega)).symm

/-- A character that is no digit ends the reading, unless the digits in front of it do. -/
theorem readDigits_of_other {high : Nat} {text : List Char}
    (other : ¬ ∀ c ∈ text, c.isDigit = true) :
    readDigits high text = .error .invalidDigit ∨ readDigits high text = .error .tooLarge := by
  induction text generalizing high with
  | nil => exact absurd (fun c member => nomatch member) other
  | cons c rest ih =>
    rw [readDigits]
    by_cases digit : c.isDigit = true
    · rw [Decimal.digit?_of_isDigit digit]
      dsimp only
      split
      · refine ih fun all => other fun d member => ?_
        rcases List.mem_cons.mp member with rfl | member
        · exact digit
        · exact all d member
      · exact .inr rfl
    · rw [Decimal.digit?_eq_none_of_not_isDigit digit]
      exact .inl rfl

/-! ## Numerals -/

variable {text digits : List Char} {n : Nat}

theorem readNumber_signed (some_digit : digits ≠ []) :
    readNumber ('+' :: digits) = readDigits 0 digits := by
  cases digits with
  | nil => contradiction
  | cons c rest => rfl

theorem readNumber_plain (some_digit : digits ≠ []) (unsigned : digits.head? ≠ some '+') :
    readNumber digits = readDigits 0 digits := by
  unfold readNumber
  split
  · contradiction
  · contradiction
  · contradiction
  · rfl

/-- A numeral is read as its number, unless that does not fit a word. -/
theorem readNumber_of_numeral (spelled : Numeral text n) :
    readNumber text = if n < limit then .ok n else .error .tooLarge := by
  have zero : 0 < limit := by decide
  cases spelled with
  | plain some_digit all =>
    have unsigned : text.head? ≠ some '+' := by
      intro sign
      exact absurd (all '+' (List.mem_of_head? sign)) (by decide)
    rw [readNumber_plain some_digit unsigned, readDigits_of_digits zero all]
  | signed some_digit all => rw [readNumber_signed some_digit, readDigits_of_digits zero all]

/-- Any other text is refused at a character that is no digit, or at a digit too many. -/
theorem readNumber_of_other (some_text : text ≠ []) (other : ∀ n, ¬ Numeral text n) :
    readNumber text = .error .invalidDigit ∨ readNumber text = .error .tooLarge := by
  by_cases sign : text.head? = some '+'
  · obtain ⟨rest, rfl⟩ := List.head?_eq_some_iff.mp sign
    by_cases alone : rest = []
    · subst alone
      exact .inl rfl
    · rw [readNumber_signed alone]
      exact readDigits_of_other fun all => other _ (.signed alone all)
  · rw [readNumber_plain some_text sign]
    exact readDigits_of_other fun all => other _ (.plain some_text all)

/-- What is replied to a numeral: its number, if that fits a word and is greater than four. -/
theorem reply_of_numeral (spelled : Numeral text n) :
    reply text = if n < limit then (if n ≤ 4 then .error "must be greater than 4" else .ok n)
      else .error "number too large to fit in target type" := by
  rw [reply, read, readNumber_of_numeral spelled]
  by_cases fits : n < limit
  · rw [if_pos fits, if_pos fits]
    by_cases narrow : n ≤ 4
    · rw [if_pos narrow]
      exact congrArg (Except.mapError StrideFault.message) (if_pos narrow)
    · rw [if_neg narrow]
      exact congrArg (Except.mapError StrideFault.message) (if_neg narrow)
  · rw [if_neg fits, if_neg fits]
    rfl

theorem reply_of_fault {fault : StrideFault} (failed : readNumber text = .error fault) :
    reply text = .error fault.message := by
  rw [reply, read, failed]
  rfl

/-- No other text is replied to with a number. -/
theorem reply_of_other (some_text : text ≠ []) (other : ∀ n, ¬ Numeral text n) :
    reply text = .error "invalid digit found in string" ∨
      reply text = .error "number too large to fit in target type" := by
  rcases readNumber_of_other some_text other with failed | failed
  · exact .inl (reply_of_fault failed)
  · exact .inr (reply_of_fault failed)

theorem reply_eq_ok_iff : reply text = .ok n ↔ Numeral text n ∧ 4 < n ∧ n < limit := by
  constructor
  · intro accepted
    by_cases spelled : ∃ m, Numeral text m
    · obtain ⟨m, spelled⟩ := spelled
      rw [reply_of_numeral spelled] at accepted
      split at accepted
      next fits =>
        split at accepted
        · contradiction
        next wide =>
          obtain rfl := Except.ok.inj accepted
          exact ⟨spelled, Nat.lt_of_not_le wide, fits⟩
      · contradiction
    · by_cases nothing : text = []
      · subst nothing
        contradiction
      · rcases reply_of_other nothing (not_exists.mp spelled) with refused | refused <;>
          rw [refused] at accepted <;> contradiction
  · rintro ⟨spelled, wide, fits⟩
    rw [reply_of_numeral spelled, if_pos fits, if_neg (Nat.not_le.mpr wide)]

/-- The digits of a number are a numeral of it. -/
theorem numeral_digits (n : Nat) : Numeral (Decimal.digits n) n := by
  have spelled := @Numeral.plain (Decimal.digits n) Nat.toDigits_ne_nil
    fun c => Decimal.isDigit_of_mem_digits
  rwa [Decimal.value_digits] at spelled

theorem check_eq_ok_iff (settings : Settings) : settings.check = .ok () ↔ 4 < settings.stride := by
  by_cases narrow : settings.stride ≤ Record.idLength
  · rw [Settings.check, if_pos narrow]
    exact iff_of_false (fun accepted => by cases accepted) (Nat.not_lt.mpr narrow)
  · rw [Settings.check, if_neg narrow]
    exact iff_of_true rfl (Nat.lt_of_not_le narrow)

/-- The slot lengths that are read are those that a scan accepts, among the numbers of a word. A text
is read as a number if it is a numeral of it and the number is one of these; every number that a scan
accepts is read from its digits. A numeral of another number is refused for what is wrong with the
number, the empty text for being empty, and any other text for a character that is no digit or for a
number too large. -/
theorem reply_numerals :
    (∀ text n, reply text = .ok n ↔ Numeral text n ∧ 4 < n ∧ n < 2 ^ 64) ∧
    (∀ text n, reply text = .ok n →
      ∀ settings : Settings, settings.stride = n → settings.check = .ok ()) ∧
    (∀ settings : Settings, settings.stride < 2 ^ 64 → settings.check = .ok () →
      reply (Decimal.digits settings.stride) = .ok settings.stride) ∧
    (∀ text n, Numeral text n →
      (reply text = .error "must be greater than 4" ↔ n ≤ 4) ∧
      (reply text = .error "number too large to fit in target type" ↔ 2 ^ 64 ≤ n)) ∧
    reply [] = .error "cannot parse integer from empty string" ∧
    (∀ text, text ≠ [] → (∀ n, ¬ Numeral text n) →
      reply text = .error "invalid digit found in string" ∨
        reply text = .error "number too large to fit in target type") := by
  refine ⟨fun text n => reply_eq_ok_iff, ?_, ?_, ?_, rfl, fun text => reply_of_other⟩
  · rintro text n accepted settings rfl
    rw [check_eq_ok_iff]
    exact (reply_eq_ok_iff.mp accepted).2.1
  · intro settings fits accepted
    rw [check_eq_ok_iff] at accepted
    exact reply_eq_ok_iff.mpr ⟨numeral_digits settings.stride, accepted, fits⟩
  · intro text n spelled
    have differ : "must be greater than 4" ≠ "number too large to fit in target type" := by decide
    rw [reply_of_numeral spelled]
    by_cases fits : n < limit
    · rw [if_pos fits]
      by_cases narrow : n ≤ 4
      · rw [if_pos narrow]
        exact ⟨iff_of_true rfl narrow, iff_of_false (fun same => differ (Except.error.inj same))
          (Nat.not_le.mpr fits)⟩
      · rw [if_neg narrow]
        exact ⟨iff_of_false (fun same => by cases same) narrow,
          iff_of_false (fun same => by cases same) (Nat.not_le.mpr fits)⟩
    · rw [if_neg fits]
      have large : 2 ^ 64 ≤ n := Nat.not_lt.mp fits
      exact ⟨iff_of_false (fun same => differ (Except.error.inj same).symm) (by omega),
        iff_of_true rfl large⟩

theorem reply_numerals_signed :
    reply "+000128".toList = .ok 128 ∧ (({ stride := 128 } : Settings).check = .ok ()) ∧
      128 < 2 ^ 64 ∧ reply (Decimal.digits 128) = .ok 128 ∧
      Numeral "18446744073709551616".toList (2 ^ 64) ∧
      reply "18446744073709551616".toList = .error "number too large to fit in target type" ∧
      ['9', 'x'] ≠ [] ∧ (∀ n, ¬ Numeral ['9', 'x'] n) ∧
      (reply ['9', 'x'] = .error "invalid digit found in string" ∨
        reply ['9', 'x'] = .error "number too large to fit in target type") := by
  obtain ⟨accepted, checked, own, refused, _, other⟩ := reply_numerals
  have signed : Numeral "+000128".toList 128 := .signed (by decide) (List.all_eq_true.mp rfl)
  have read : reply "+000128".toList = .ok 128 := (accepted _ _).mpr ⟨signed, by decide, by decide⟩
  have wide : ({ stride := 128 } : Settings).check = .ok () := checked _ _ read _ rfl
  have large : Numeral "18446744073709551616".toList (2 ^ 64) :=
    .plain (by decide) (List.all_eq_true.mp rfl)
  have letter : ∀ n, ¬ Numeral ['9', 'x'] n := by
    intro n spelled
    cases spelled with
    | plain _ all => exact absurd (all 'x' (by decide)) (by decide)
  exact ⟨read, wide, by decide, own { stride := 128 } (by decide) wide, large,
    (refused _ _ large).2.mpr (Nat.le_refl _), by decide, letter, other _ (by decide) letter⟩

end RamLog.Command.Stride
