import Mathlib.Algebra.Group.Nat.Defs
import RamLog.Proofs.Text.Lines
import RamLog.Text.Decimal
import RamLog.Text.Hexadecimal

/-!
# Numbers read off their digits

Different numbers have different digits, and where the digits of a number end can be seen from what
follows: a separator that begins with something else (`digits_append_inj`, `column_append_inj`).
Upper-case hexadecimal digits of a fixed count determine the number that fits them. All digits are
printable.
-/
namespace RamLog.Text

namespace Decimal

theorem digits_inj {m n : Nat} (same : digits m = digits n) : m = n := by
  have values := congrArg (fun ds => Nat.ofDigitChars 10 ds 0) same
  simpa only [digits, Nat.ofDigitChars_ten_toDigits] using values

/-- Whether a separator ends the digits in front of it. -/
def EndsDigits (separator : List Char) : Prop := ∃ c, separator.head? = some c ∧ c.isDigit = false

theorem takeWhile_digits_append (n : Nat) {separator : List Char} (stop : EndsDigits separator)
    (rest : List Char) : (digits n ++ (separator ++ rest)).takeWhile Char.isDigit = digits n := by
  obtain ⟨c, first, other⟩ := stop
  obtain ⟨more, rfl⟩ := List.head?_eq_some_iff.mp first
  rw [List.takeWhile_append_of_pos fun c member => isDigit_of_mem_digits member, List.cons_append,
    List.takeWhile_cons_of_neg (by simp [other]), List.append_nil]

/-- Two texts that begin with a number and the same separator begin with the same number. -/
theorem digits_append_inj {m n : Nat} {separator : List Char} (stop : EndsDigits separator)
    {s t : List Char} (same : digits m ++ (separator ++ s) = digits n ++ (separator ++ t)) :
    m = n ∧ s = t := by
  have numbers := congrArg (List.takeWhile Char.isDigit) same
  rw [takeWhile_digits_append m stop, takeWhile_digits_append n stop] at numbers
  obtain rfl := digits_inj numbers
  exact ⟨rfl, List.append_cancel_left (List.append_cancel_left same)⟩

theorem column_eq (width n : Nat) :
    column width n = List.replicate (width - (digits n).length) ' ' ++ digits n := rfl

/-- The spaces in front of a number in a column are all there is to the column. -/
theorem dropWhile_column_append (width n : Nat) (rest : List Char) :
    (column width n ++ rest).dropWhile (· = ' ') = digits n ++ rest := by
  have spaces : ∀ c ∈ List.replicate (width - (digits n).length) ' ', decide (c = ' ') = true := by
    intro c member
    exact decide_eq_true (List.eq_of_mem_replicate member)
  obtain ⟨first, more, digitsOf⟩ :=
    List.exists_cons_of_ne_nil (Nat.toDigits_ne_nil (n := n) (b := 10))
  have digit : first.isDigit = true := isDigit_of_mem_digits (n := n) (by simp [digits, digitsOf])
  have notSpace : first ≠ ' ' := by
    rintro rfl
    contradiction
  rw [column_eq, List.append_assoc, List.dropWhile_append_of_pos spaces, digits, digitsOf,
    List.cons_append, List.dropWhile_cons_of_neg (by simpa using notSpace)]

theorem column_append_inj {width m n : Nat} {separator : List Char} (stop : EndsDigits separator)
    {s t : List Char}
    (same : column width m ++ (separator ++ s) = column width n ++ (separator ++ t)) :
    m = n ∧ s = t := by
  have numbers := congrArg (List.dropWhile (· = ' ')) same
  rw [dropWhile_column_append, dropWhile_column_append] at numbers
  exact digits_append_inj stop numbers

theorem all_isPrintable_digits (n : Nat) : (digits n).all isPrintable = true := by
  rw [List.all_eq_true]
  intro c member
  have digit := isDigit_of_mem_digits member
  rw [Char.isDigit_iff_toNat] at digit
  have zero : '0'.toNat = 48 := rfl
  have nine : '9'.toNat = 57 := rfl
  rw [isPrintable_eq_true_iff]
  omega

theorem all_isPrintable_column (width n : Nat) : (column width n).all isPrintable = true := by
  rw [column_eq, List.all_append, all_isPrintable_digits, Bool.and_true, List.all_eq_true]
  intro c member
  rw [List.eq_of_mem_replicate member]
  rfl

theorem digit?_of_isDigit {c : Char} (digit : c.isDigit = true) :
    digit? c = some (c.toNat - '0'.toNat) := by
  obtain ⟨low, high⟩ := Char.isDigit_iff_toNat.mp digit
  exact if_pos ⟨low, high⟩

theorem digit?_eq_none_of_not_isDigit {c : Char} (other : ¬ c.isDigit = true) :
    digit? c = none := by
  refine if_neg fun range => other ?_
  exact Char.isDigit_iff_toNat.mpr ⟨range.1, range.2⟩

/-- Digits that follow never make a number smaller. -/
theorem le_value (high : Nat) (text : List Char) : high ≤ value high text := by
  induction text generalizing high with
  | nil => exact Nat.le_refl high
  | cons c rest ih =>
    rw [value]
    exact Nat.le_trans (by omega) (ih _)

theorem value_eq_ofDigitChars (high : Nat) (text : List Char)
    (all : ∀ c ∈ text, c.isDigit = true) : value high text = Nat.ofDigitChars 10 text high := by
  induction text generalizing high with
  | nil => rfl
  | cons c rest ih =>
    rw [value, digit?_of_isDigit (all c (by simp)), Nat.ofDigitChars_cons,
      ih _ fun d member => all d (by simp [member])]
    rfl

/-- The digits of a number have its value. -/
theorem value_digits (n : Nat) : value 0 (digits n) = n := by
  rw [value_eq_ofDigitChars 0 (digits n) fun c => isDigit_of_mem_digits]
  exact Nat.ofDigitChars_ten_toDigits

end Decimal

namespace Hexadecimal

/-- A character is a digit of at most one value. -/
theorem digit?_eq_some_iff {c : Char} {value : Nat} :
    digit? c = some value ↔ value < 16 ∧ digit value = c := by
  constructor
  · intro read
    unfold digit? at read
    split at read
    next decimal =>
      obtain rfl := Option.some.inj read
      have low : 48 ≤ c.toNat := decimal.1
      have high : c.toNat ≤ 57 := decimal.2
      refine ⟨by omega, ?_⟩
      rw [digit, if_pos (by omega), Nat.add_sub_cancel' low, Char.ofNat_toNat]
    next =>
      split at read
      next letter =>
        obtain rfl := Option.some.inj read
        have low : 65 ≤ c.toNat := letter.1
        have high : c.toNat ≤ 70 := letter.2
        refine ⟨by omega, ?_⟩
        rw [digit, if_neg (by omega), Nat.add_sub_cancel' (by omega), Char.ofNat_toNat]
      · contradiction
  · rintro ⟨small, rfl⟩
    exact digit?_digit ⟨value, small⟩

theorem digit_inj {m n : Nat} (hm : m < 16) (hn : n < 16) (same : digit m = digit n) : m = n := by
  have values := congrArg digit? same
  rw [digit?_digit ⟨m, hm⟩, digit?_digit ⟨n, hn⟩] at values
  exact Option.some.inj values

/-- Numbers that fit the digits have digits of their own. -/
theorem digits_inj {width m n : Nat} (hm : m < 16 ^ width) (hn : n < 16 ^ width)
    (same : digits width m = digits width n) : m = n := by
  induction width generalizing m n with
  | zero => omega
  | succ width ih =>
    rw [Nat.pow_succ] at hm hn
    have lengths : (digits width (m / 16)).length = (digits width (n / 16)).length := by simp
    obtain ⟨high, low⟩ := List.append_inj same lengths
    have quotients : m / 16 = n / 16 := ih (by omega) (by omega) high
    have remainders : m % 16 = n % 16 :=
      digit_inj (Nat.mod_lt _ (by decide)) (Nat.mod_lt _ (by decide)) (List.singleton_inj.mp low)
    omega

theorem isPrintable_digit : ∀ n : Fin 16, isPrintable (digit n.val) = true := by decide

theorem all_isPrintable_digits (width n : Nat) : (digits width n).all isPrintable = true := by
  induction width generalizing n with
  | zero => rfl
  | succ width ih =>
    have last := isPrintable_digit ⟨n % 16, Nat.mod_lt _ (by decide)⟩
    rw [digits, List.all_append, ih, Bool.true_and]
    simpa using last

end Hexadecimal

end RamLog.Text
