import Feedkeeper.Instant.Calendar
import Mathlib.Tactic.IntervalCases

/-!
# Days and dates

The date of a day exists (`Calendar.isValid_ofDays`), and is that of no other day
(`Calendar.toDays_ofDays`). Both are about the days of one era, the eras being all alike, and there
about the four centuries one by one : within a century the years are found by division.
-/

namespace Feedkeeper

namespace Calendar

/-- The year within its era, from March on, of a day of the era. -/
def yearOfEra (dayOfEra : Int) : Int :=
  (dayOfEra - dayOfEra / 1460 + dayOfEra / 36524 - dayOfEra / 146096) / 365

/-- The day within its year, from March on, of a day of an era. -/
def dayOfYear (dayOfEra : Int) : Int :=
  dayOfEra - (365 * yearOfEra dayOfEra + yearOfEra dayOfEra / 4 - yearOfEra dayOfEra / 100)

/-- The month within its year, from March on, of a day of the year. -/
def monthOfYear (dayOfYear : Int) : Int :=
  (5 * dayOfYear + 2) / 153

variable {dayOfEra : Int}

/-- The centuries of an era have 36524 days each, and the last of them one more. -/
theorem century (low : 0 ≤ dayOfEra) (high : dayOfEra < 146097) :
    dayOfEra / 146096 = 0 ∧ (dayOfEra / 36524 = 0 ∨ dayOfEra / 36524 = 1 ∨ dayOfEra / 36524 = 2 ∨
      dayOfEra / 36524 = 3) ∨ dayOfEra = 146096 := by
  omega

theorem yearOfEra_bounds (low : 0 ≤ dayOfEra) (high : dayOfEra < 146097) :
    0 ≤ yearOfEra dayOfEra ∧ yearOfEra dayOfEra < 400 := by
  unfold yearOfEra
  omega

/-- A year has 365 days, and one more if the February at its end has. -/
theorem dayOfYear_bounds (low : 0 ≤ dayOfEra) (high : dayOfEra < 146097) :
    0 ≤ dayOfYear dayOfEra ∧ dayOfYear dayOfEra ≤ 365 ∧ (dayOfYear dayOfEra = 365 →
      (yearOfEra dayOfEra + 1) % 4 = 0 ∧
        ((yearOfEra dayOfEra + 1) % 100 ≠ 0 ∨ (yearOfEra dayOfEra + 1) % 400 = 0)) := by
  unfold dayOfYear
  generalize hyear : yearOfEra dayOfEra = year
  rw [yearOfEra] at hyear
  obtain ⟨whole, hcentury⟩ | rfl := century low high
  · have hundreds : year / 100 = dayOfEra / 36524 := by
      obtain h | h | h | h := hcentury <;> omega
    have bounds : 0 ≤ dayOfEra - (365 * year + year / 4 - year / 100) ∧
        dayOfEra - (365 * year + year / 4 - year / 100) ≤ 365 := by
      obtain h | h | h | h := hcentury <;> omega
    refine ⟨bounds.1, bounds.2, fun last => ?_⟩
    -- The other three years of four would begin anew with the day after 364.
    have fourth : year % 4 = 3 := by
      obtain r | r | r | r : year % 4 = 0 ∨ year % 4 = 1 ∨ year % 4 = 2 ∨ year % 4 = 3 := by omega
      · obtain h | h | h | h := hcentury <;> omega
      · obtain h | h | h | h := hcentury <;> omega
      · obtain h | h | h | h := hcentury <;> omega
      · exact r
    obtain h | h | h | h := hcentury <;> omega
  · omega

/-! ## Months -/

/-- From March on the months are told by a division. -/
theorem monthOfYear_bounds {day : Int} (low : 0 ≤ day) (high : day ≤ 365) :
    0 ≤ monthOfYear day ∧ monthOfYear day ≤ 11 ∧ 0 ≤ day - (153 * monthOfYear day + 2) / 5 := by
  unfold monthOfYear
  omega

/-- No month is too short for its days, if the last day of the year is one of a leap year. -/
theorem dayOfMonth_le {day : Int} (low : 0 ≤ day) (high : day ≤ 365) (year : Int)
    (leap : day = 365 → isLeapYear year = true) :
    day - (153 * monthOfYear day + 2) / 5 + 1 ≤ daysInMonth year
      (if monthOfYear day < 10 then monthOfYear day + 3 else monthOfYear day - 9).toNat := by
  obtain ⟨first, last, -⟩ := monthOfYear_bounds low high
  have hmonth : monthOfYear day = (5 * day + 2) / 153 := rfl
  generalize monthOfYear day = month at *
  obtain rfl | others : month = 11 ∨ month ≤ 10 := by omega
  · -- February, which has its last day only in a leap year.
    by_cases last : day = 365
    · simp [daysInMonth, leap last]
      omega
    · have short : 28 ≤ daysInMonth year 2 := by
        unfold daysInMonth
        split <;> split <;> decide
      simp
      omega
  · interval_cases month <;> simp [daysInMonth] <;> omega

/-! ## Dates -/

/-- The parts of the date of a day. -/
theorem exists_ofDays (days : Int) : ∃ era year day : Int,
    0 ≤ year ∧ year < 400 ∧ 0 ≤ day ∧ day ≤ 365 ∧
    days + 719468 = era * 146097 + (365 * year + year / 4 - year / 100 + day) ∧
    (day = 365 → isLeapYear (year + era * 400 + 1) = true) ∧
    Date.ofDays days =
      let month := if monthOfYear day < 10 then monthOfYear day + 3 else monthOfYear day - 9
      ⟨year + era * 400 + (if month ≤ 2 then 1 else 0), month.toNat,
        (day - (153 * monthOfYear day + 2) / 5 + 1).toNat⟩ := by
  have part : (days + 719468).fdiv 146097 = (days + 719468) / 146097 :=
    Int.fdiv_eq_ediv_of_nonneg _ (by decide)
  generalize hera : (days + 719468).fdiv 146097 = era at part
  have low : 0 ≤ days + 719468 - era * 146097 := by omega
  have high : days + 719468 - era * 146097 < 146097 := by omega
  obtain ⟨first, last⟩ := yearOfEra_bounds low high
  obtain ⟨first', last', leap⟩ := dayOfYear_bounds low high
  refine ⟨era, yearOfEra (days + 719468 - era * 146097), dayOfYear (days + 719468 - era * 146097),
    first, last, first', last', ?_, fun h => ?_, by rw [← hera]; rfl⟩
  · unfold dayOfYear
    omega
  · obtain ⟨fourth, century⟩ := leap h
    simp only [isLeapYear, Bool.and_eq_true, Bool.or_eq_true, decide_eq_true_eq]
    omega

/-- The date of a day exists. -/
theorem isValid_ofDays (days : Int) : (Date.ofDays days).isValid = true := by
  obtain ⟨era, year, day, -, -, low, high, -, leap, date⟩ := exists_ofDays days
  obtain ⟨first, last, above⟩ := monthOfYear_bounds low high
  have length := dayOfMonth_le low high (Date.ofDays days).year fun h => by
    subst h
    rw [date]
    exact leap rfl
  rw [date] at length ⊢
  simp only [Date.isValid, Bool.and_eq_true, decide_eq_true_eq]
  refine ⟨⟨⟨?_, ?_⟩, ?_⟩, ?_⟩
  · split <;> omega
  · split <;> omega
  · omega
  · dsimp only at length
    omega

/-- A day is that of its date. -/
theorem toDays_ofDays (days : Int) : (Date.ofDays days).toDays = days := by
  obtain ⟨era, year, day, first, last, low, high, sum, -, date⟩ := exists_ofDays days
  obtain ⟨first', last', above⟩ := monthOfYear_bounds low high
  rw [date]
  generalize monthOfYear day = month at *
  generalize hcivil : (if month < 10 then month + 3 else month - 9) = civil
  have march : (((civil.toNat + 9) % 12 : Nat) : Int) = month := by split at hcivil <;> omega
  have shifted : (if civil.toNat ≤ 2 then year + era * 400 + (if civil ≤ 2 then 1 else 0) - 1
      else year + era * 400 + (if civil ≤ 2 then 1 else 0)) = year + era * 400 := by
    split <;> split <;> omega
  have part : (year + era * 400).fdiv 400 = era := by
    rw [Int.fdiv_eq_ediv_of_nonneg _ (by decide)]
    omega
  simp only [Date.toDays]
  rw [shifted, part, march]
  omega

end Calendar

end Feedkeeper
