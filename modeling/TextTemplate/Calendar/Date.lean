namespace TextTemplate.Calendar

/-- Every fourth year has a leap day, of the full centuries only every fourth one. -/
def isLeap (year : Int) : Bool :=
  year % 4 == 0 && (year % 100 != 0 || year % 400 == 0)

def monthLength (year : Int) (month : Nat) : Nat :=
  match month with
  | 2 => if isLeap year then 29 else 28
  | 4 | 6 | 9 | 11 => 30
  | _ => 31

/-- A day of the Gregorian calendar between the first of January -262143 and the last of December 262142. -/
structure Date where
  year : Int
  month : Nat
  day : Nat
  year_range : -262143 ≤ year ∧ year ≤ 262142
  month_range : 1 ≤ month ∧ month ≤ 12
  day_range : 1 ≤ day ∧ day ≤ monthLength year month
deriving DecidableEq

namespace Date

def ofYearMonthDay? (year : Int) (month day : Nat) : Option Date :=
  if h : (-262143 ≤ year ∧ year ≤ 262142) ∧ (1 ≤ month ∧ month ≤ 12) ∧
      1 ≤ day ∧ day ≤ monthLength year month then
    some ⟨year, month, day, h.1, h.2.1, h.2.2⟩
  else none

/-- Days of the months before `month`. -/
def daysBeforeMonth (year : Int) : Nat → Nat
  | 0 | 1 => 0
  | month + 2 => daysBeforeMonth year (month + 1) + monthLength year (month + 1)

/-- The day's number within its year, from one. -/
def dayOfYear (d : Date) : Nat :=
  daysBeforeMonth d.year d.month + d.day

/-- Days from the first of January of year one to the first of January of `year`. -/
def daysBeforeYear (year : Int) : Int :=
  let past := year - 1
  365 * past + past / 4 - past / 100 + past / 400

/-- The day's number, one for the first of January of year one. -/
def dayNumber (d : Date) : Int :=
  daysBeforeYear d.year + d.dayOfYear

/-- The day number of the first of January 1970. -/
def epoch : Int := 719163

/-- Month and day of a day of the year, found by passing the months from `month` on. -/
def monthAndDay (year : Int) (months month dayOfYear : Nat) : Nat × Nat :=
  match months with
  | 0 => (month, dayOfYear)
  | left + 1 =>
    if dayOfYear ≤ monthLength year month then (month, dayOfYear)
    else monthAndDay year left (month + 1) (dayOfYear - monthLength year month)

/-- Year and day of the year of a day number, through cycles of 400, 100, 4 and 1 years. -/
def yearAndDay (dayNumber : Int) : Int × Nat :=
  let cycle := (dayNumber - 1) / 146097
  let inCycle := ((dayNumber - 1) % 146097).toNat
  let century := min (inCycle / 36524) 3
  let inCentury := inCycle - century * 36524
  let olympiad := inCentury / 1461
  let inOlympiad := inCentury % 1461
  let year := min (inOlympiad / 365) 3
  (cycle * 400 + (century * 100 + olympiad * 4 + year + 1 : Nat), inOlympiad - year * 365 + 1)

/-- The day of a day number, if it lies in the supported range. -/
def ofDayNumber? (dayNumber : Int) : Option Date :=
  let (year, ordinal) := yearAndDay dayNumber
  let (month, day) := monthAndDay year 11 1 ordinal
  ofYearMonthDay? year month day

/-- Zero on Monday, six on Sunday. -/
def daysFromMonday (d : Date) : Nat :=
  ((d.dayNumber - 1) % 7).toNat

/-- Zero on Sunday, six on Saturday. -/
def daysFromSunday (d : Date) : Nat :=
  (d.dayNumber % 7).toNat

/-- Weeks of the year that began before this day, the first one with the first Sunday. -/
def weekFromSunday (d : Date) : Nat :=
  (d.dayOfYear + 6 - d.daysFromSunday) / 7

/-- Weeks of the year that began before this day, the first one with the first Monday. -/
def weekFromMonday (d : Date) : Nat :=
  (d.dayOfYear + 6 - d.daysFromMonday) / 7

/-- The year and the number of the week, from Monday on, that holds this day. A week belongs to the year
of its Thursday. -/
def isoWeek (d : Date) : Int × Nat :=
  let thursday := d.dayNumber - d.daysFromMonday + 3
  let (year, ordinal) := yearAndDay thursday
  (year, (ordinal + 6) / 7)

def quarter (d : Date) : Nat :=
  (d.month + 2) / 3

end Date

end TextTemplate.Calendar
