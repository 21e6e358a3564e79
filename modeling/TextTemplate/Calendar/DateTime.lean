import TextTemplate.Calendar.Date

namespace TextTemplate.Calendar

/-- A minute may have a leap second, the one numbered 60. -/
structure TimeOfDay where
  hour : Nat
  minute : Nat
  second : Nat
  nanosecond : Nat
  hour_range : hour < 24
  minute_range : minute < 60
  second_range : second ≤ 60
  nanosecond_range : nanosecond < 1000000000
deriving DecidableEq

namespace TimeOfDay

def midnight : TimeOfDay :=
  ⟨0, 0, 0, 0, by decide, by decide, by decide, by decide⟩

def ofClock? (hour minute second nanosecond : Nat) : Option TimeOfDay :=
  if h : hour < 24 ∧ minute < 60 ∧ second ≤ 60 ∧ nanosecond < 1000000000 then
    some ⟨hour, minute, second, nanosecond, h.1, h.2.1, h.2.2.1, h.2.2.2⟩
  else none

/-- Seconds since midnight; a leap second shares the number of the second before it. -/
def secondOfDay (t : TimeOfDay) : Nat :=
  (t.hour * 60 + t.minute) * 60 + min t.second 59

def hour12 (t : TimeOfDay) : Nat :=
  if t.hour % 12 = 0 then 12 else t.hour % 12

def isAfternoon (t : TimeOfDay) : Bool :=
  12 ≤ t.hour

end TimeOfDay

/-- A day and a time without a zone. -/
structure DateTime where
  date : Date
  time : TimeOfDay
deriving DecidableEq

namespace DateTime

/-- Seconds since the beginning of 1970. -/
def unixSeconds (d : DateTime) : Int :=
  (d.date.dayNumber - Date.epoch) * 86400 + d.time.secondOfDay

/-- The date-time so many seconds after the beginning of 1970, if it lies in the supported range. -/
def ofUnixSeconds? (seconds : Int) : Option DateTime := do
  let date ← Date.ofDayNumber? (seconds / 86400 + Date.epoch)
  let inDay := (seconds % 86400).toNat
  let time ← TimeOfDay.ofClock? (inDay / 3600) (inDay / 60 % 60) (inDay % 60) 0
  return ⟨date, time⟩

/-- A number that rises with time: nanoseconds on a clock whose minutes all have 61 seconds. -/
def instant (d : DateTime) : Int :=
  ((d.date.dayNumber * 24 + d.time.hour) * 60 + d.time.minute) * 61 * 1000000000 +
    d.time.second * 1000000000 + d.time.nanosecond

def order (a b : DateTime) : Ordering :=
  compare a.instant b.instant

end DateTime

end TextTemplate.Calendar
