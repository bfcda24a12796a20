import Feedkeeper.Json.Numeral
import Mathlib.Data.List.TakeWhile

/-!
# Integers as numerals

An integer is written as its digits, without leading zeros, behind a minus if it is negative. Such a
numeral is read back character for character (`Numeral.IsInteger.parse?_text`), and stands for the
integer, as long as that fits 64 bits (`Numeral.toNumber?_ofInt`).
-/

namespace Feedkeeper.Json

/-- The integer has a word of 64 bits, signed or unsigned. -/
def Number.Fits (value : Int) : Prop :=
  -(Nat.pow 2 63 : Int) ≤ value ∧ value < (Nat.pow 2 64 : Int)

namespace Numeral

/-- The numeral is an integer : digits without leading zeros, and a sign at most. -/
structure IsInteger (numeral : Numeral) : Prop where
  digits : ∀ c ∈ numeral.whole, Digits.isDigit c = true
  nonempty : numeral.whole ≠ []
  lead : numeral.whole.head? = some '0' → numeral.whole.length = 1
  fraction : numeral.fraction = none
  exponent : numeral.exponent = none

theorem isInteger_ofNat (n : Nat) : (ofNat n).IsInteger where
  digits := Digits.ofNat_isDigit n
  nonempty := Digits.ofNat_ne_nil n
  lead h := by
    obtain rfl := Digits.eq_zero_of_head?_ofNat h
    rw [ofNat, Digits.ofNat]
    rfl
  fraction := rfl
  exponent := rfl

theorem isInteger_ofInt (value : Int) : (ofInt value).IsInteger :=
  { isInteger_ofNat value.natAbs with }

variable {numeral : Numeral}

/-- An integer is read as it is written. -/
theorem IsInteger.parse?_text (h : numeral.IsInteger) : parse? numeral.text = some numeral := by
  obtain ⟨negative, whole, fraction, exponent⟩ := numeral
  obtain ⟨digits, nonempty, zero, rfl, rfl⟩ := h
  dsimp only at digits nonempty zero
  have taken : whole.takeWhile Digits.isDigit = whole := List.takeWhile_eq_self_iff.2 digits
  have dropped : whole.dropWhile Digits.isDigit = [] := List.dropWhile_eq_nil_iff.2 digits
  have lead : ¬(whole = [] ∨ whole.head? = some '0' ∧ whole.length ≠ 1) := by
    rintro (empty | ⟨zero', long⟩)
    · exact nonempty empty
    · exact long (zero zero')
  cases negative with
  | true =>
    simp [parse?, text, fractionText, exponentText, taken, dropped, lead, parseFraction?,
      parseExponent?]
  | false =>
    obtain ⟨c, rest, rfl⟩ := List.exists_cons_of_ne_nil nonempty
    have unsigned : c ≠ '-' := by
      rintro rfl
      exact absurd (digits '-' List.mem_cons_self) (by decide)
    have alone : c = '0' → rest = [] := by simpa using zero
    simpa [parse?, text, fractionText, exponentText, unsigned, taken, dropped, parseFraction?,
      parseExponent?] using alone

/-- An integer begins with a minus or a digit, and has no other characters. -/
theorem IsInteger.exists_text (h : numeral.IsInteger) : ∃ c rest, numeral.text = c :: rest ∧
    (c = '-' ∨ Digits.isDigit c = true) ∧ ∀ c ∈ rest, Digits.isDigit c = true := by
  obtain ⟨negative, whole, fraction, exponent⟩ := numeral
  obtain ⟨digits, nonempty, -, rfl, rfl⟩ := h
  dsimp only at digits nonempty
  cases negative with
  | true => exact ⟨'-', whole, by simp [text, fractionText, exponentText], Or.inl rfl, digits⟩
  | false =>
    obtain ⟨c, rest, rfl⟩ := List.exists_cons_of_ne_nil nonempty
    obtain ⟨first, digits⟩ := List.forall_mem_cons.1 digits
    exact ⟨c, rest, by simp [text, fractionText, exponentText], Or.inr first, digits⟩

/-! ## Values -/

@[simp] theorem toNat?_ofNat (n : Nat) : (ofNat n).toNat? = some n := by
  simp [toNat?, ofNat]

/-- The numeral of an integer stands for it. -/
theorem toNumber?_ofInt {value : Int} (fits : Number.Fits value) :
    (ofInt value).toNumber? = some (.int value) := by
  obtain ⟨low, high⟩ := fits
  have bounds : Nat.pow 2 63 < Nat.pow 2 64 := by decide
  have small : value.natAbs < Nat.pow 2 64 := by omega
  rw [toNumber?, ofInt]
  simp only [Digits.value_ofNat, small, and_self, if_true]
  by_cases negative : value < 0
  · have signed : ¬(value.natAbs = 0 ∨ Nat.pow 2 63 < value.natAbs) := by omega
    have same : -(value.natAbs : Int) = value := by omega
    rw [if_neg (by simp [negative]), if_neg signed, same]
  · have same : (value.natAbs : Int) = value := by omega
    rw [if_pos (by simp [negative]), same]

/-- An integer that a numeral stands for fits 64 bits. -/
theorem fits_of_toNumber? {value : Int} (h : numeral.toNumber? = some (.int value)) :
    Number.Fits value := by
  rw [toNumber?] at h
  simp only at h
  split at h
  · rename_i whole
    obtain ⟨-, -, small⟩ := whole
    split at h
    · injection h with h
      injection h with h
      constructor <;> omega
    split at h
    · cases h
    · injection h with h
      injection h with h
      constructor <;> omega
  · obtain ⟨bits, -, h⟩ := Option.map_eq_some_iff.1 h
    cases h

end Numeral

end Feedkeeper.Json
