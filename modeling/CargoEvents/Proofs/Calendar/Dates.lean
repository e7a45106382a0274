import CargoEvents.Calendar.Civil
import Mathlib.Tactic.SplitIfs

/-! # Dates

Every number of days is that of one date of the calendar: `ofDays` gives a valid date, and
`toDays` counts the days it was made from. Both see the day as one of a year that begins in March.
-/
namespace CargoEvents.Calendar.Civil

/-- The days are so many eras, centuries, olympiads and years from a first of March, and a day of
the last. An era has one day more than four centuries, a century one less than 25 olympiads, and an
olympiad one more than four years. -/
structure Reckoned (days era century olympiad year day : Int) : Prop where
  sum : days + epochShift = eraDays * era + 36524 * century + 1461 * olympiad + 365 * year + day
  centuries : 0 ≤ century ∧ century ≤ 3
  olympiads : 0 ≤ olympiad ∧ olympiad ≤ 24
  years : 0 ≤ year ∧ year ≤ 3
  within : 0 ≤ day ∧ day ≤ 365
  /-- Only the last year of an olympiad may have a leap day, and of a century only the last one of
  an era. -/
  leap : day = 365 → year = 3 ∧ (olympiad = 24 → century = 3)

/-- The month that holds the given day of a year, zero for March. -/
def marchMonth (day : Int) : Int := (5 * day + 2) / 153

def ofMarch (year day : Int) : Civil where
  year := if marchMonth day < 10 then year else year + 1
  month := (if marchMonth day < 10 then marchMonth day + 3 else marchMonth day - 9).toNat
  day := (day - monthStart (marchMonth day) + 1).toNat

variable {day : Int}

theorem exists_reckoned (days : Int) : ∃ era century olympiad year day,
    Reckoned days era century olympiad year day ∧
      ofDays days = ofMarch (400 * era + 100 * century + 4 * olympiad + year) day := by
  let shifted := days + epochShift
  let dayOfEra := shifted % eraDays
  let century := min (dayOfEra / 36524) 3
  let dayOfCentury := dayOfEra - 36524 * century
  let dayOfOlympiad := dayOfCentury % 1461
  let year := min (dayOfOlympiad / 365) 3
  refine ⟨shifted / eraDays, century, dayOfCentury / 1461, year, dayOfOlympiad - 365 * year,
    ⟨?_, ?_, ?_, ?_, ?_, ?_⟩, rfl⟩
  all_goals
    simp only [shifted, dayOfEra, century, dayOfCentury, dayOfOlympiad, year, eraDays, epochShift]
    omega

theorem marchMonth_bounds (h : 0 ≤ day ∧ day ≤ 365) : 0 ≤ marchMonth day ∧ marchMonth day ≤ 11 ∧
    monthStart (marchMonth day) ≤ day ∧ day < monthStart (marchMonth day + 1) := by
  simp only [marchMonth, monthStart]
  omega

/-- The leap days of the years before, and the days of this one. -/
theorem toDays_ofMarch (year : Int) (h : 0 ≤ day ∧ day ≤ 365) :
    (ofMarch year day).toDays = eraDays * (year / 400) +
      (365 * (year % 400) + year % 400 / 4 - year % 400 / 100 + day) - epochShift := by
  obtain ⟨hlow, hhigh, hstart, -⟩ := marchMonth_bounds h
  have hyear : (if (ofMarch year day).month ≤ 2 then (ofMarch year day).year - 1
      else (ofMarch year day).year) = year := by
    simp only [ofMarch]
    split <;> split <;> omega
  have hmonth : ((ofMarch year day).month + 9 : Int) % 12 = marchMonth day := by
    simp only [ofMarch]
    split <;> omega
  have hday : monthStart (marchMonth day) + ((ofMarch year day).day - 1 : Int) = day := by
    simp only [ofMarch]
    omega
  simp only [toDays, hyear, hmonth]
  rw [hday]

theorem toDays_ofDays (days : Int) : (ofDays days).toDays = days := by
  obtain ⟨era, century, olympiad, year, day, h, hdate⟩ := exists_reckoned days
  obtain ⟨hsum, hcenturies, holympiads, hyears, hwithin, -⟩ := h
  rw [hdate, toDays_ofMarch _ hwithin]
  simp only [eraDays] at *
  omega

theorem ofDays_valid (days : Int) : (ofDays days).Valid := by
  obtain ⟨era, century, olympiad, year, day, h, hdate⟩ := exists_reckoned days
  obtain ⟨-, hcenturies, holympiads, hyears, hwithin, hleap⟩ := h
  obtain ⟨hlow, hhigh, hstart, hend⟩ := marchMonth_bounds hwithin
  rw [hdate]
  simp only [monthStart] at hstart hend
  simp only [Valid, ofMarch, monthStart, daysInMonth, isLeap, Bool.and_eq_true, Bool.or_eq_true,
    beq_iff_eq, bne_iff_ne]
  split_ifs <;> omega

end CargoEvents.Calendar.Civil
