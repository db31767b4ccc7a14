import Mathlib.Data.Int.Order.Basic

/-!
# Civil dates

The proleptic Gregorian calendar, with days counted from 1970-01-01. Years start
in March here, so that a leap day is the last day of its year: an era of 400 years has
four centuries, a century 25 cycles of four years, and the last century of an era and the
last year of a cycle may be one day longer than the others.
-/

namespace Marathon.Lib

structure CivilDate where
  year : ℤ
  month : ℤ
  day : ℤ
deriving DecidableEq, Repr

namespace CivilDate

/-- The days before the given one in an era, from a year of the era and a day of that year. -/
def dayOfEra (year dayOfYear : ℤ) : ℤ := 365 * year + year / 4 - year / 100 + dayOfYear

/-- The days from the first of March to the first of a month, with March as month 0. -/
def daysBefore (month : ℤ) : ℤ := (153 * month + 2) / 5

def toEpochDay (date : CivilDate) : ℤ :=
  let year := if date.month ≤ 2 then date.year - 1 else date.year
  let month := if date.month ≤ 2 then date.month + 9 else date.month - 3
  year / 400 * 146097 + dayOfEra (year % 400) (daysBefore month + (date.day - 1)) - 719468

/-- The year of an era and the day of that year. -/
def yearAndDay (dayOfEra : ℤ) : ℤ × ℤ :=
  let century := min 3 (dayOfEra / 36524)
  let dayOfCentury := dayOfEra - 36524 * century
  let cycle := dayOfCentury / 1461
  let dayOfCycle := dayOfCentury - 1461 * cycle
  let year := min 3 (dayOfCycle / 365)
  (100 * century + 4 * cycle + year, dayOfCycle - 365 * year)

/-- The date of a day of a year that starts in March, given the month from March on. -/
def ofMarch (year month dayOfYear : ℤ) : CivilDate where
  year := year + if month < 10 then 0 else 1
  month := if month < 10 then month + 3 else month - 9
  day := dayOfYear - daysBefore month + 1

def ofEpochDay (epochDay : ℤ) : CivilDate :=
  let day := epochDay + 719468
  let date := yearAndDay (day % 146097)
  ofMarch (day / 146097 * 400 + date.1) ((5 * date.2 + 2) / 153) date.2

theorem yearAndDay_day (dayOfEra : ℤ) :
    0 ≤ (yearAndDay dayOfEra).2 ∧ (dayOfEra < 146097 → (yearAndDay dayOfEra).2 < 366) := by
  simp only [yearAndDay]
  omega

theorem yearAndDay_year {dayOfEra : ℤ} (h₀ : 0 ≤ dayOfEra) (h : dayOfEra < 146097) :
    0 ≤ (yearAndDay dayOfEra).1 ∧ (yearAndDay dayOfEra).1 < 400 := by
  simp only [yearAndDay]
  omega

theorem dayOfEra_yearAndDay {day : ℤ} (h₀ : 0 ≤ day) (h : day < 146097) :
    dayOfEra (yearAndDay day).1 (yearAndDay day).2 = day := by
  rw [yearAndDay, dayOfEra]
  generalize hcentury : min 3 (day / 36524) = century
  generalize hcycle : (day - 36524 * century) / 1461 = cycle
  generalize hyear : min 3 ((day - 36524 * century - 1461 * cycle) / 365) = year
  -- The cycles and years of a century stay below the next one.
  have hbounds : 0 ≤ cycle ∧ cycle ≤ 24 ∧ 0 ≤ year ∧ year ≤ 3 := by omega
  have hfour : (100 * century + 4 * cycle + year) / 4 = 25 * century + cycle := by omega
  have hhundred : (100 * century + 4 * cycle + year) / 100 = century := by omega
  rw [hfour, hhundred]
  omega

theorem month_bounds {dayOfYear : ℤ} (h₀ : 0 ≤ dayOfYear) (h : dayOfYear < 366) :
    0 ≤ (5 * dayOfYear + 2) / 153 ∧ (5 * dayOfYear + 2) / 153 ≤ 11 ∧
      daysBefore ((5 * dayOfYear + 2) / 153) ≤ dayOfYear ∧
      dayOfYear ≤ daysBefore ((5 * dayOfYear + 2) / 153) + 30 := by
  simp only [daysBefore]
  omega

theorem toEpochDay_ofMarch {year month dayOfYear : ℤ} (h₀ : 0 ≤ month) (h : month ≤ 11) :
    (ofMarch year month dayOfYear).toEpochDay =
      year / 400 * 146097 + dayOfEra (year % 400) dayOfYear - 719468 := by
  have hback : daysBefore month + (dayOfYear - daysBefore month + 1 - 1) = dayOfYear := by omega
  rw [toEpochDay, ofMarch]
  by_cases hmonth : month < 10
  · have hstart : ¬month + 3 ≤ 2 := by omega
    have hmarch : month + 3 - 3 = month := by omega
    rw [if_pos hmonth, if_pos hmonth, if_neg hstart, if_neg hstart, hmarch, hback, Int.add_zero]
  · -- January and February end the year that started in the March before them.
    have hstart : month - 9 ≤ 2 := by omega
    have hmarch : month - 9 + 9 = month := by omega
    have hyear : year + 1 - 1 = year := by omega
    rw [if_neg hmonth, if_neg hmonth, if_pos hstart, if_pos hstart, hmarch, hback, hyear]

section OfEpochDay

variable (epochDay : ℤ)

theorem ofEpochDay_bounds :
    (1 ≤ (ofEpochDay epochDay).month ∧ (ofEpochDay epochDay).month ≤ 12) ∧
      1 ≤ (ofEpochDay epochDay).day ∧ (ofEpochDay epochDay).day ≤ 31 := by
  have hlt : (epochDay + 719468) % 146097 < 146097 := Int.emod_lt_of_pos _ (by decide)
  obtain ⟨hday₀, hday⟩ := yearAndDay_day ((epochDay + 719468) % 146097)
  obtain ⟨hmonth₀, hmonth, hfirst, hlast⟩ := month_bounds hday₀ (hday hlt)
  rw [ofEpochDay, ofMarch]
  dsimp only
  split_ifs <;> omega

/-- A day is read back from its date. -/
theorem toEpochDay_ofEpochDay : (ofEpochDay epochDay).toEpochDay = epochDay := by
  have hnonneg : 0 ≤ (epochDay + 719468) % 146097 := Int.emod_nonneg _ (by decide)
  have hlt : (epochDay + 719468) % 146097 < 146097 := Int.emod_lt_of_pos _ (by decide)
  obtain ⟨hday₀, hday⟩ := yearAndDay_day ((epochDay + 719468) % 146097)
  obtain ⟨hyear₀, hyear⟩ := yearAndDay_year hnonneg hlt
  have hera := dayOfEra_yearAndDay hnonneg hlt
  obtain ⟨hmonth₀, hmonth, -, -⟩ := month_bounds hday₀ (hday hlt)
  rw [ofEpochDay, toEpochDay_ofMarch hmonth₀ hmonth]
  generalize yearAndDay ((epochDay + 719468) % 146097) = date at hyear₀ hyear hera ⊢
  have hdiv : ((epochDay + 719468) / 146097 * 400 + date.1) / 400 = (epochDay + 719468) / 146097 := by
    omega
  have hmod : ((epochDay + 719468) / 146097 * 400 + date.1) % 400 = date.1 := by omega
  rw [hdiv, hmod, hera]
  omega

end OfEpochDay

example : ofEpochDay 11016 = ⟨2000, 2, 29⟩ ∧ ofEpochDay (-1) = ⟨1969, 12, 31⟩ := by decide

end CivilDate

end Marathon.Lib
