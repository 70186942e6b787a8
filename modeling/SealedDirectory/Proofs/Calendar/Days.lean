import Mathlib.Tactic.IntervalCases
import SealedDirectory.Calendar.Date

/-!
# Days and dates

Dates repeat after an era of four hundred years, which begins with a March.  A day of an
era has its place in a century, in a cycle of four years and in a year, and the last cycle
of a century and the last century of an era make the exceptions.  Both computations, the
one from days to dates and the one back, are compared with that place, and not with each
other.

A date has days behind it whether or not it exists.  Nothing is said here about dates
that do not.
-/

namespace SealedDirectory.Calendar

/-- No month is longer than thirty-one days. -/
theorem monthLength_le
    (year : Int)
    (month : Nat) :
    monthLength year month ≤ 31 := by
  unfold monthLength
  repeat' split
  all_goals decide

/-- The place of a day in an era of four hundred years, each of which begins with a March. -/
structure EraDay where
  century : Int
  /-- The cycle of four years within the century. -/
  cycle : Int
  /-- The year within the cycle. -/
  year : Int
  day : Int
  centuries : 0 ≤ century ∧ century ≤ 3
  cycles : 0 ≤ cycle ∧ cycle ≤ 24
  years : 0 ≤ year ∧ year ≤ 3
  days : 0 ≤ day ∧ day ≤ 365
  /-- Only a leap year has a day more. -/
  leap : day = 365 → year = 3 ∧ (cycle = 24 → century = 3)

namespace EraDay

def yearOfEra
    (place : EraDay) :
    Int :=
  100 * place.century + 4 * place.cycle + place.year

def dayOfEra
    (place : EraDay) :
    Int :=
  36524 * place.century + 1461 * place.cycle + 365 * place.year + place.day

/-- The month, counted from March. -/
def month
    (place : EraDay) :
    Int :=
  (5 * place.day + 2) / 153

/-- The date of a place in the era of this number. -/
def date
    (place : EraDay)
    (era : Int) :
    Date :=
  let civilMonth := if place.month < 10 then place.month + 3 else place.month - 9
  let year := place.yearOfEra + era * 400
  { year := if civilMonth ≤ 2 then year + 1 else year
    month := civilMonth.toNat
    day := (place.day - (153 * place.month + 2) / 5 + 1).toNat }

/-- Each day of an era has a place, the year of which is the one that is computed. -/
theorem exists_place
    (day : Int)
    (atLeast : 0 ≤ day)
    (below : day < 146097) :
    ∃ place : EraDay,
      day = place.dayOfEra ∧
      (day - day / 1460 + day / 36524 - day / 146096) / 365 = place.yearOfEra := by
  -- The last day of an era belongs to a century that is a day longer than the others.
  by_cases last : day = 146096
  · subst last
    exact ⟨⟨3, 24, 3, 365, by decide, by decide, by decide, by decide, by decide⟩, by decide,
      by decide⟩
  · obtain ⟨century, isCentury⟩ : ∃ century, century = day / 36524 := ⟨_, rfl⟩
    obtain ⟨cycle, isCycle⟩ : ∃ cycle, cycle = (day - 36524 * century) / 1461 := ⟨_, rfl⟩
    obtain ⟨left, isLeft⟩ : ∃ left, left = day - 36524 * century - 1461 * cycle := ⟨_, rfl⟩
    obtain ⟨year, isYear⟩ : ∃ year, year = min (left / 365) 3 := ⟨_, rfl⟩
    have centuries : 0 ≤ century ∧ century ≤ 3 := by omega
    have cycles : 0 ≤ cycle ∧ cycle ≤ 24 := by omega
    have inCycle : 0 ≤ left ∧ left < 1461 := by omega
    have years : 0 ≤ year ∧ year ≤ 3 := by omega
    have days : 0 ≤ left - 365 * year ∧ left - 365 * year ≤ 365 := by omega
    have leap : left - 365 * year = 365 → year = 3 ∧ (cycle = 24 → century = 3) := by omega
    refine ⟨⟨century, cycle, year, left - 365 * year, centuries, cycles, years, days, leap⟩,
      ?_, ?_⟩
    · dsimp only [dayOfEra]
      omega
    · have notLast : day / 146096 = 0 := by omega
      have passed :
          day / 1460 = 25 * century + cycle + (24 * century + cycle + left) / 1460 := by
        omega
      dsimp only [yearOfEra]
      rw [passed, ← isCentury, notLast]
      omega

/-- The days of an era before a year are those of all the years before it. -/
theorem dayOfEra_sub
    (place : EraDay) :
    place.dayOfEra - (365 * place.yearOfEra + place.yearOfEra / 4 - place.yearOfEra / 100) =
      place.day := by
  obtain ⟨century, cycle, year, day, centuries, cycles, years, -, -⟩ := place
  simp only [dayOfEra, yearOfEra]
  omega

theorem yearOfEra_lt
    (place : EraDay) :
    0 ≤ place.yearOfEra ∧ place.yearOfEra < 400 := by
  obtain ⟨century, cycle, year, day, centuries, cycles, years, -, -⟩ := place
  simp only [yearOfEra]
  omega

theorem month_lt
    (place : EraDay) :
    0 ≤ place.month ∧ place.month ≤ 11 := by
  have days := place.days
  simp only [month]
  omega

/-- A day beyond the three hundred and sixty-fifth is one of the February of a leap year. -/
theorem isLeap_of_day_eq
    (place : EraDay)
    (era : Int)
    (last : place.day = 365) :
    isLeap (place.yearOfEra + era * 400 + 1) = true := by
  obtain ⟨isYear, isCentury⟩ := place.leap last
  have years := place.years
  have cycles := place.cycles
  have centuries := place.centuries
  simp only [yearOfEra, isLeap, Bool.and_eq_true, Bool.or_eq_true, beq_iff_eq, bne_iff_ne,
    ne_eq]
  omega

/-- The day of a date at a place is that of the place. -/
theorem toDays_date
    (place : EraDay)
    (era : Int) :
    (place.date era).toDays = era * 146097 + place.dayOfEra - 719468 := by
  have years := place.yearOfEra_lt
  have passed := place.dayOfEra_sub
  have months := place.month_lt
  have inMonth : 0 ≤ place.day - (153 * place.month + 2) / 5 := by
    simp only [month]
    omega
  have isYear : (if (place.date era).month ≤ 2 then (place.date era).year - 1
      else (place.date era).year) = place.yearOfEra + era * 400 := by
    dsimp only [date]
    split <;> split <;> omega
  have isMonth : (if 2 < (place.date era).month then ((place.date era).month : Int) - 3
      else (place.date era).month + 9) = place.month := by
    dsimp only [date]
    split <;> omega
  have isDay : ((place.date era).day : Int) =
      place.day - (153 * place.month + 2) / 5 + 1 := by
    dsimp only [date]
    omega
  have isEra : (place.yearOfEra + era * 400).fdiv 400 = era := by
    rw [Int.fdiv_eq_ediv_of_nonneg _ (by decide)]
    omega
  dsimp only [Date.toDays]
  rw [isYear, isMonth, isDay, isEra, Int.add_sub_cancel]
  omega

/-- The date of a place is a day of a month. -/
theorem date_exists
    (place : EraDay)
    (era : Int) :
    1 ≤ (place.date era).month ∧ (place.date era).month ≤ 12 ∧
      1 ≤ (place.date era).day ∧
      (place.date era).day ≤
        monthLength (place.date era).year (place.date era).month := by
  have days := place.days
  have leaps := isLeap_of_day_eq place era
  have months := place.month_lt
  obtain ⟨month, isMonth⟩ : ∃ month, month = place.month := ⟨_, rfl⟩
  have inMonth : 153 * month ≤ 5 * place.day + 2 ∧ 5 * place.day + 2 < 153 * month + 153 := by
    rw [isMonth, EraDay.month]
    omega
  dsimp only [date, monthLength]
  rw [← isMonth] at months ⊢
  clear isMonth
  obtain ⟨least, most⟩ := months
  -- Each month has its own length; only that of February depends on the year.
  interval_cases month <;> simp <;> try omega
  by_cases last : place.day = 365
  · simp [leaps last]
    omega
  · split <;> omega

end EraDay

namespace Date

/-- The date so many days from the beginning is that of the place of the day in its era. -/
theorem ofDays_eq
    (days : Int) :
    ∃ (place : EraDay) (era : Int),
      days + 719468 = era * 146097 + place.dayOfEra ∧ ofDays days = place.date era := by
  obtain ⟨era, isEra⟩ : ∃ era, era = (days + 719468).fdiv 146097 := ⟨_, rfl⟩
  have divided : era = (days + 719468) / 146097 := by
    rw [isEra, Int.fdiv_eq_ediv_of_nonneg _ (by decide)]
  obtain ⟨place, isDay, isYear⟩ :=
    EraDay.exists_place (days + 719468 - era * 146097) (by omega) (by omega)
  refine ⟨place, era, by omega, ?_⟩
  dsimp only [ofDays]
  rw [← isEra, isYear, isDay, place.dayOfEra_sub]
  rfl

/-- The days of the date of a number of days are that number. -/
theorem toDays_ofDays
    (days : Int) :
    (ofDays days).toDays = days := by
  obtain ⟨place, era, isDay, isDate⟩ := ofDays_eq days
  rw [isDate, place.toDays_date]
  omega

/-- A number of days whose year can be shown has a date that exists. -/
theorem isValid_ofDays
    {days : Int}
    (least : firstYear ≤ (ofDays days).year)
    (most : (ofDays days).year ≤ lastYear) :
    (ofDays days).isValid = true := by
  obtain ⟨place, era, -, isDate⟩ := ofDays_eq days
  have exact := place.date_exists era
  rw [isDate] at least most ⊢
  simp [isValid, least, most, exact]

example : (ofDays 11016).isValid = true ∧ (ofDays 11016).toDays = 11016 := by decide

end Date

end SealedDirectory.Calendar
