import Feedkeeper.Instant
import Feedkeeper.Proofs.Calendar
import Mathlib.Data.List.TakeWhile

/-!
# Instants come back from their texts

The text of an instant of the years 0 to 9999 that is in no leap second is read as the instant
(`Instant.read?_text`). Every number in it has as many digits as the reader takes at most, and the
fraction is one of the nanoseconds whatever zeros were left out.
-/

namespace Feedkeeper

namespace Instant

/-- The instant is in one of the years 0 to 9999 of UTC, and in no leap second. -/
structure Storable (instant : Instant) : Prop where
  year_nonneg : 0 ≤ (Calendar.Date.ofDays (instant.seconds.fdiv 86400)).year
  year_le : (Calendar.Date.ofDays (instant.seconds.fdiv 86400)).year ≤ 9999
  nanos_lt : instant.nanos < 1000000000

/-! ## Numbers -/

theorem isBlank_of_isDigit {c : Char} (h : Digits.isDigit c = true) : Text.isBlank c = false := by
  simp only [Digits.isDigit, Bool.and_eq_true, decide_eq_true_eq] at h
  simp [Text.isBlank, Text.blankRanges]
  omega

/-- Padded digits begin with a digit. -/
theorem exists_padded (width n : Nat) :
    ∃ c rest, Digits.padded width n = c :: rest ∧ Digits.isDigit c = true := by
  have nonempty : Digits.padded width n ≠ [] :=
    List.append_ne_nil_of_right_ne_nil _ (Digits.ofNat_ne_nil n)
  obtain ⟨c, rest, cons⟩ := List.exists_cons_of_ne_nil nonempty
  exact ⟨c, rest, cons, Digits.padded_isDigit width n c (cons ▸ List.mem_cons_self)⟩

theorem skipBlanks_padded (width n : Nat) (rest : List Char) :
    Text.skipBlanks (Digits.padded width n ++ rest) = Digits.padded width n ++ rest := by
  obtain ⟨c, others, cons, digit⟩ := exists_padded width n
  rw [cons, Text.skipBlanks, List.cons_append, List.dropWhile_cons_of_neg]
  simp [isBlank_of_isDigit digit]

/-- A number is read as it is written, padded to the most digits that are taken. -/
theorem number?_padded {width n : Nat} (h : n < 10 ^ (width + 1)) (rest : List Char) :
    number? (width + 1) (Digits.padded (width + 1) n ++ rest) = some (n, rest) := by
  have length := Digits.length_padded h
  have taken : ((Digits.padded (width + 1) n ++ rest).take (width + 1)).takeWhile Digits.isDigit =
      Digits.padded (width + 1) n := by
    rw [List.take_left' length]
    exact List.takeWhile_eq_self_iff.2 (Digits.padded_isDigit _ _)
  have nonempty : Digits.padded (width + 1) n ≠ [] := List.ne_nil_of_length_eq_add_one length
  simp only [number?, skipBlanks_padded, taken, if_neg nonempty, Digits.value_padded,
    List.drop_left]

theorem year?_padded {n : Nat} (h : n < 10 ^ 4) (rest : List Char) :
    year? (Digits.padded 4 n ++ rest) = some ((n : Int), rest) := by
  have number := number?_padded h rest
  obtain ⟨c, others, cons, digit⟩ := exists_padded 4 n
  have unsigned : c ≠ '-' ∧ c ≠ '+' := by constructor <;> rintro rfl <;> cases digit
  rw [year?, skipBlanks_padded]
  rw [cons, List.cons_append] at number ⊢
  simp [unsigned, number]

theorem fraction?_padded {width n : Nat} (short : width + 1 ≤ 9) (h : n < 10 ^ (width + 1)) :
    fraction? ('.' :: Digits.padded (width + 1) n ++ ['Z']) =
      some (n * Nat.pow 10 (9 - (width + 1)), ['Z']) := by
  have length := Digits.length_padded h
  have taken : (Digits.padded (width + 1) n ++ ['Z']).takeWhile Digits.isDigit =
      Digits.padded (width + 1) n := by
    rw [List.takeWhile_append_of_pos (Digits.padded_isDigit _ _)]
    exact List.append_nil _
  have kept : (Digits.padded (width + 1) n).take 9 = Digits.padded (width + 1) n :=
    List.take_of_length_le (by omega)
  have nonempty : Digits.padded (width + 1) n ≠ [] := List.ne_nil_of_length_eq_add_one length
  simp only [fraction?, List.cons_append, taken, kept, if_neg nonempty, Digits.value_padded, length,
    List.drop_left' length]

/-- A fraction is read as the nanoseconds that it was written for. -/
theorem fraction?_fractionText {nanos : Nat} (h : nanos < 1000000000) :
    fraction? (fractionText nanos ++ ['Z']) = some (nanos, ['Z']) := by
  rw [fractionText]
  split
  · rename_i zero
    subst zero
    rfl
  split
  · rw [fraction?_padded (by decide) (by omega)]
    have : nanos / 1000000 * Nat.pow 10 (9 - 3) = nanos := by
      change nanos / 1000000 * 1000000 = nanos
      omega
    rw [this]
  split
  · rw [fraction?_padded (by decide) (by omega)]
    have : nanos / 1000 * Nat.pow 10 (9 - 6) = nanos := by
      change nanos / 1000 * 1000 = nanos
      omega
    rw [this]
  · rw [fraction?_padded (by decide) (by omega)]
    have : nanos * Nat.pow 10 (9 - 9) = nanos := Nat.mul_one nanos
    rw [this]

/-! ## Instants -/

theorem separator?_self {c : Char} (h : Text.isBlank c = false) (rest : List Char) :
    separator? c (c :: rest) = some rest := by
  rw [separator?, Text.skipBlanks, List.dropWhile_cons_of_neg (by simp [h])]
  exact if_pos rfl

/-- The date and the time of day in UTC make up the instant. -/
theorem ofParts?_utc {instant : Instant} (h : instant.Storable) :
    ofParts? (Calendar.Date.ofDays (instant.seconds.fdiv 86400))
      ((instant.seconds.fmod 86400).toNat / 3600) ((instant.seconds.fmod 86400).toNat / 60 % 60)
      ((instant.seconds.fmod 86400).toNat % 60) instant.nanos 0 = some instant := by
  obtain ⟨year_nonneg, year_le, nanos⟩ := h
  have low : 0 ≤ instant.seconds.fmod 86400 := Int.fmod_nonneg_of_pos _ (by decide)
  have high : instant.seconds.fmod 86400 < 86400 := Int.fmod_lt_of_pos _ (by decide)
  have split : 86400 * instant.seconds.fdiv 86400 + instant.seconds.fmod 86400 = instant.seconds :=
    Int.mul_fdiv_add_fmod _ _
  have valid := Calendar.isValid_ofDays (instant.seconds.fdiv 86400)
  have days := Calendar.toDays_ofDays (instant.seconds.fdiv 86400)
  have range : yearInRange (Calendar.Date.ofDays (instant.seconds.fdiv 86400)).year = true := by
    simp only [yearInRange, Bool.and_eq_true, decide_eq_true_eq]
    omega
  generalize htime : (instant.seconds.fmod 86400).toNat = time
  have hour : time / 3600 ≤ 23 := by omega
  have minute : time / 60 % 60 ≤ 59 := by omega
  have second : time % 60 ≤ 60 := by omega
  have unleaped : time % 60 / 60 = 0 := by omega
  have clock : time / 3600 * 3600 + time / 60 % 60 * 60 + (time % 60 - 0) = time := by omega
  have seconds : instant.seconds.fdiv 86400 * 86400 + (time : Int) - 0 = instant.seconds := by omega
  rw [ofParts?, if_pos (by simp [valid, range, hour, minute, second])]
  simp only [unleaped, clock, days, seconds, range, if_true, Nat.zero_mul, Nat.add_zero]

/-- An instant is read as it is written. -/
theorem read?_text {instant : Instant} (h : instant.Storable) :
    read? instant.text = some instant := by
  have utc := ofParts?_utc h
  obtain ⟨year_nonneg, year_le, nanos⟩ := h
  have valid := Calendar.isValid_ofDays (instant.seconds.fdiv 86400)
  have range : instant.seconds.fmod 86400 < 86400 := Int.fmod_lt_of_pos _ (by decide)
  have whole : instant.nanos % 1000000000 = instant.nanos := Nat.mod_eq_of_lt nanos
  have unleaped : instant.nanos / 1000000000 = 0 := Nat.div_eq_of_lt nanos
  rw [text, read?, String.toList_ofList, chars]
  generalize Calendar.Date.ofDays (instant.seconds.fdiv 86400) = date at *
  generalize htime : (instant.seconds.fmod 86400).toNat = time at *
  simp only [Calendar.Date.isValid, Bool.and_eq_true, decide_eq_true_eq] at valid
  have longest : Calendar.daysInMonth date.year date.month ≤ 31 := by
    unfold Calendar.daysInMonth
    split <;> split <;> decide
  have same : ((date.year.toNat : Int)) = date.year := Int.toNat_of_nonneg year_nonneg
  have year (rest : List Char) : year? (yearText date.year ++ rest) = some (date.year, rest) := by
    rw [yearText, if_pos ⟨year_nonneg, year_le⟩, year?_padded (by omega), same]
  have dash := separator?_self (c := '-') (by decide)
  have colon := separator?_self (c := ':') (by decide)
  have number {n : Nat} (small : n < 100) (rest : List Char) :
      number? 2 (Digits.padded 2 n ++ rest) = some (n, rest) := number?_padded small rest
  have month := number (n := date.month) (by omega)
  have day := number (n := date.day) (by omega)
  have hour := number (n := time / 3600) (by omega)
  have minute := number (n := time / 60 % 60) (by omega)
  have second := number (n := time % 60) (by omega)
  have zone : offset? (Text.skipBlanks ['Z']) = some (0, []) := rfl
  have ended : Text.skipBlanks [] = [] := rfl
  simp only [whole, unleaped, List.append_assoc, List.cons_append, Nat.add_zero]
  dsimp only [Option.bind_eq_bind]
  rw [year, Option.bind_some, dash, Option.bind_some, month, Option.bind_some, dash,
    Option.bind_some, day, Option.bind_some]
  dsimp only
  rw [if_pos (Or.inl rfl), Option.bind_some, hour, Option.bind_some, colon, Option.bind_some,
    minute, Option.bind_some, colon, Option.bind_some, second, Option.bind_some,
    fraction?_fractionText nanos, Option.bind_some, zone, Option.bind_some,
    if_neg (not_not.2 ended)]
  exact utc

end Instant

end Feedkeeper
