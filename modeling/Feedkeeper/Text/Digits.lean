/-!
# Decimal digits

Natural numbers as decimal digits, most significant first. `value_ofNat` says that writing and
reading agree, and `ofNat_isDigit` that only digits are written.
-/

namespace Feedkeeper

namespace Digits

/-- The digit of a number below ten. -/
def digit (n : Nat) : Char :=
  Char.ofNat (48 + n % 10)

/-- The number that a digit stands for. -/
def digitValue (c : Char) : Nat :=
  c.toNat - 48

/-- The ASCII digits, and no other characters. -/
def isDigit (c : Char) : Bool :=
  48 ≤ c.toNat && c.toNat ≤ 57

/-- The number that the digits stand for. -/
def value (digits : List Char) : Nat :=
  digits.foldl (fun n c => 10 * n + digitValue c) 0

/-- The digits of a number, without leading zeros. -/
def ofNat (n : Nat) : List Char :=
  if n < 10 then [digit n] else ofNat (n / 10) ++ [digit n]

/-- The digits of a number, filled up with leading zeros to at least the width. -/
def padded (width n : Nat) : List Char :=
  let digits := ofNat n
  List.replicate (width - digits.length) '0' ++ digits

/-- A nonempty run of digits, read as a number. -/
def read? (chars : List Char) : Option Nat :=
  if chars ≠ [] ∧ chars.all isDigit then some (value chars) else none

/-- The digits stand in order from the code point 48 on. -/
theorem toNat_digit (n : Nat) : (digit n).toNat = 48 + n % 10 := by
  have hv : (48 + n % 10).isValidChar := Or.inl (by omega)
  rw [digit, Char.ofNat, dif_pos hv]
  rfl

/-- The digit of a number stands for its last decimal place. -/
@[simp] theorem digitValue_digit (n : Nat) : digitValue (digit n) = n % 10 := by
  rw [digitValue, toNat_digit]
  omega

/-- A digit is a digit. -/
@[simp] theorem isDigit_digit (n : Nat) : isDigit (digit n) = true := by
  rw [isDigit, toNat_digit]
  simp only [Bool.and_eq_true, decide_eq_true_eq]
  omega

/-- One more digit counts as the ones of ten times the rest. -/
theorem value_append_singleton (digits : List Char) (c : Char) :
    value (digits ++ [c]) = 10 * value digits + digitValue c := by
  simp [value]

/-- The digits of a number stand for it. -/
@[simp] theorem value_ofNat (n : Nat) : value (ofNat n) = n := by
  induction n using Nat.strongRecOn with
  | ind n ih =>
    rw [ofNat]
    split
    · simp [value]
      omega
    · rw [value_append_singleton, ih (n / 10) (by omega), digitValue_digit]
      omega

/-- Only digits are written. -/
theorem ofNat_isDigit (n : Nat) : ∀ c ∈ ofNat n, isDigit c = true := by
  induction n using Nat.strongRecOn with
  | ind n ih =>
    rw [ofNat]
    split
    · simp
    · simp only [List.mem_append, List.mem_singleton]
      rintro c (h | rfl)
      · exact ih (n / 10) (by omega) c h
      · simp

/-- At least one digit is written. -/
theorem ofNat_ne_nil (n : Nat) : ofNat n ≠ [] := by
  rw [ofNat]
  split <;> simp

/-- Only zero begins with a zero. -/
theorem eq_zero_of_head?_ofNat {n : Nat} (h : (ofNat n).head? = some '0') : n = 0 := by
  induction n using Nat.strongRecOn with
  | ind n ih =>
    rw [ofNat] at h
    split at h
    · have zero : (digit n).toNat = 48 := congrArg Char.toNat (Option.some.inj h)
      rw [toNat_digit] at zero
      omega
    · obtain ⟨c, rest, cons⟩ := List.exists_cons_of_ne_nil (ofNat_ne_nil (n / 10))
      rw [cons] at h
      have := ih (n / 10) (by omega) (cons ▸ h)
      omega

/-- A number below a power of ten has at most so many digits. -/
theorem length_ofNat_le {n width : Nat} (h : n < Nat.pow 10 (width + 1)) :
    (ofNat n).length ≤ width + 1 := by
  induction width generalizing n with
  | zero =>
    rw [ofNat, if_pos h]
    exact Nat.le_refl 1
  | succ width ih =>
    rw [ofNat]
    split
    · simp
    · have bound : n < Nat.pow 10 (width + 1) * 10 := h
      have := ih (Nat.div_lt_of_lt_mul (Nat.mul_comm _ _ ▸ bound))
      simp only [List.length_append, List.length_singleton]
      omega

/-- The digits of a number are read as it. -/
@[simp] theorem read?_ofNat (n : Nat) : read? (ofNat n) = some n := by
  have h : (ofNat n).all isDigit = true := List.all_eq_true.2 (ofNat_isDigit n)
  simp [read?, ofNat_ne_nil, h]

/-! ## Padded digits -/

theorem padded_isDigit (width n : Nat) : ∀ c ∈ padded width n, isDigit c = true := by
  intro c h
  rcases List.mem_append.1 h with h | h
  · rw [List.eq_of_mem_replicate h]
    decide
  · exact ofNat_isDigit n c h

/-- Leading zeros count nothing. -/
@[simp] theorem value_padded (width n : Nat) : value (padded width n) = n := by
  have zeros (count : Nat) (digits : List Char) :
      value (List.replicate count '0' ++ digits) = value digits := by
    induction count with
    | zero => rfl
    | succ count ih => exact ih
  rw [padded, zeros, value_ofNat]

/-- A number that does not take more digits than the width is written in just as many. -/
theorem length_padded {width n : Nat} (h : n < Nat.pow 10 (width + 1)) :
    (padded (width + 1) n).length = width + 1 := by
  have := length_ofNat_le h
  rw [padded, List.length_append, List.length_replicate]
  omega

end Digits

end Feedkeeper
