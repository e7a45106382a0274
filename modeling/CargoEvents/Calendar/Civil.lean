/-! # Civil dates

Days since 1970-01-01 and dates of the proleptic Gregorian calendar. Both directions count
in eras of 400 years and in years that begin in March, so a leap day ends its year.
-/
namespace CargoEvents.Calendar

structure Civil where
  year : Int
  month : Nat
  day : Nat
  deriving DecidableEq, Repr

def isLeap (year : Int) : Bool := year % 4 == 0 && (year % 100 != 0 || year % 400 == 0)

def daysInMonth (year : Int) (month : Nat) : Nat :=
  if month = 2 then (if isLeap year then 29 else 28)
  else if month = 4 ∨ month = 6 ∨ month = 9 ∨ month = 11 then 30 else 31

def Civil.Valid (d : Civil) : Prop :=
  1 ≤ d.month ∧ d.month ≤ 12 ∧ 1 ≤ d.day ∧ d.day ≤ daysInMonth d.year d.month

instance (d : Civil) : Decidable d.Valid := inferInstanceAs (Decidable (_ ∧ _))

/-- Days from 0000-03-01 to 1970-01-01. -/
def epochShift : Int := 719468

/-- Days of an era of 400 years. -/
def eraDays : Int := 146097

/-- The first day of month `m` of a year that begins in March. -/
def monthStart (m : Int) : Int := (153 * m + 2) / 5

def Civil.toDays (d : Civil) : Int :=
  let year := if d.month ≤ 2 then d.year - 1 else d.year
  let yearOfEra := year % 400
  let dayOfYear := monthStart ((d.month + 9) % 12) + (d.day - 1)
  let dayOfEra := 365 * yearOfEra + yearOfEra / 4 - yearOfEra / 100 + dayOfYear
  eraDays * (year / 400) + dayOfEra - epochShift

def Civil.ofDays (days : Int) : Civil :=
  let shifted := days + epochShift
  let dayOfEra := shifted % eraDays
  let century := min (dayOfEra / 36524) 3
  let dayOfCentury := dayOfEra - 36524 * century
  let dayOfOlympiad := dayOfCentury % 1461
  let yearOfOlympiad := min (dayOfOlympiad / 365) 3
  let dayOfYear := dayOfOlympiad - 365 * yearOfOlympiad
  let month := (5 * dayOfYear + 2) / 153
  let year := 400 * (shifted / eraDays) + 100 * century + 4 * (dayOfCentury / 1461) + yearOfOlympiad
  { year := if month < 10 then year else year + 1
    month := (if month < 10 then month + 3 else month - 9).toNat
    day := (dayOfYear - monthStart month + 1).toNat }

end CargoEvents.Calendar
