import TextTemplate.Calendar.DateTime
import TextTemplate.Decimal

namespace TextTemplate.Calendar

inductive Field where
  | year | century | yearOfCentury | isoYear | isoYearOfCentury
  | quarter | month | day | dayOfYear
  | weekFromSunday | weekFromMonday | isoWeek | weekdayFromSunday | weekdayFromMonday
  | hour | hour12 | minute | second | nanosecond | unixSeconds
deriving DecidableEq, Repr

/-- What fills a numeric field up to its width. -/
inductive Padding where
  | bare | spaces | zeros
deriving DecidableEq, Repr

/-- What a pattern writes: a character as it is, or what a percent sign stands for with the letter behind it. -/
inductive PatternItem where
  | literal (c : Char)
  | number (field : Field) (padding : Padding)
  | monthName (full : Bool)
  | weekdayName (full : Bool)
  | halfOfDay (capital : Bool)
  /-- The fraction of the second, in so many digits. -/
  | fraction (digits : Nat) (point : Bool)
  /-- The fraction of the second with its point, in 3, 6 or 9 digits as needed, nothing if it is zero. -/
  | fractionAsNeeded
  | zone
deriving DecidableEq, Repr

namespace PatternItem

/-- The numeric specifiers and the padding that each has by itself. -/
def field? : Char → Option (Field × Padding)
  | 'Y' => some (.year, .zeros)
  | 'C' => some (.century, .zeros)
  | 'y' => some (.yearOfCentury, .zeros)
  | 'G' => some (.isoYear, .zeros)
  | 'g' => some (.isoYearOfCentury, .zeros)
  | 'q' => some (.quarter, .bare)
  | 'm' => some (.month, .zeros)
  | 'd' => some (.day, .zeros)
  | 'e' => some (.day, .spaces)
  | 'j' => some (.dayOfYear, .zeros)
  | 'U' => some (.weekFromSunday, .zeros)
  | 'W' => some (.weekFromMonday, .zeros)
  | 'V' => some (.isoWeek, .zeros)
  | 'w' => some (.weekdayFromSunday, .bare)
  | 'u' => some (.weekdayFromMonday, .bare)
  | 'H' => some (.hour, .zeros)
  | 'k' => some (.hour, .spaces)
  | 'I' => some (.hour12, .zeros)
  | 'l' => some (.hour12, .spaces)
  | 'M' => some (.minute, .zeros)
  | 'S' => some (.second, .zeros)
  | 'f' => some (.nanosecond, .zeros)
  | 's' => some (.unixSeconds, .bare)
  | _ => none

def shortDate : List PatternItem :=
  [.number .month .zeros, .literal '/', .number .day .zeros, .literal '/',
    .number .yearOfCentury .zeros]

def isoDate : List PatternItem :=
  [.number .year .zeros, .literal '-', .number .month .zeros, .literal '-', .number .day .zeros]

def hourMinute : List PatternItem :=
  [.number .hour .zeros, .literal ':', .number .minute .zeros]

def clock : List PatternItem :=
  hourMinute ++ [.literal ':', .number .second .zeros]

def clock12 : List PatternItem :=
  [.number .hour12 .zeros, .literal ':', .number .minute .zeros, .literal ':',
    .number .second .zeros, .literal ' ', .halfOfDay true]

/-- What one letter after the percent sign stands for. -/
def ofLetter? (c : Char) : Option (List PatternItem) :=
  match field? c with
  | some (field, padding) => some [.number field padding]
  | none =>
    match c with
    | 'B' => some [.monthName true]
    | 'b' | 'h' => some [.monthName false]
    | 'A' => some [.weekdayName true]
    | 'a' => some [.weekdayName false]
    | 'p' => some [.halfOfDay true]
    | 'P' => some [.halfOfDay false]
    | 'D' | 'x' => some shortDate
    | 'F' => some isoDate
    | 'R' => some hourMinute
    | 'T' | 'X' => some clock
    | 'r' => some clock12
    | 'v' =>
      some [.number .day .spaces, .literal '-', .monthName false, .literal '-', .number .year .zeros]
    | 'c' =>
      some ([.weekdayName false, .literal ' ', .monthName false, .literal ' ', .number .day .spaces,
        .literal ' '] ++ clock ++ [.literal ' ', .number .year .zeros])
    | 'z' | 'Z' | '+' => some [.zone]
    | '%' => some [.literal '%']
    | 'n' => some [.literal '\n']
    | 't' => some [.literal '\t']
    | _ => none

/-- A numeric specifier with a padding of its own; no other letter takes one. -/
def padded? (c : Char) (padding : Padding) : Option PatternItem :=
  (field? c).map fun (field, _) => .number field padding

end PatternItem

abbrev Pattern := List PatternItem

namespace Pattern

open PatternItem

/-- Reads a pattern; there is none for an unknown letter, a padding mark on anything but a numeric field or
an end within a specifier. -/
def read? : List Char → Option Pattern
  | [] => some []
  | '%' :: '-' :: c :: rest => do return (← padded? c .bare) :: (← read? rest)
  | '%' :: '_' :: c :: rest => do return (← padded? c .spaces) :: (← read? rest)
  | '%' :: '0' :: c :: rest => do return (← padded? c .zeros) :: (← read? rest)
  | '%' :: '#' :: 'z' :: rest => (read? rest).map (.zone :: ·)
  | '%' :: ':' :: 'z' :: rest => (read? rest).map (.zone :: ·)
  | '%' :: ':' :: ':' :: 'z' :: rest => (read? rest).map (.zone :: ·)
  | '%' :: ':' :: ':' :: ':' :: 'z' :: rest => (read? rest).map (.zone :: ·)
  | '%' :: '.' :: 'f' :: rest => (read? rest).map (.fractionAsNeeded :: ·)
  | '%' :: '.' :: '3' :: 'f' :: rest => (read? rest).map (.fraction 3 true :: ·)
  | '%' :: '.' :: '6' :: 'f' :: rest => (read? rest).map (.fraction 6 true :: ·)
  | '%' :: '.' :: '9' :: 'f' :: rest => (read? rest).map (.fraction 9 true :: ·)
  | '%' :: '3' :: 'f' :: rest => (read? rest).map (.fraction 3 false :: ·)
  | '%' :: '6' :: 'f' :: rest => (read? rest).map (.fraction 6 false :: ·)
  | '%' :: '9' :: 'f' :: rest => (read? rest).map (.fraction 9 false :: ·)
  | '%' :: c :: rest => do return (← ofLetter? c) ++ (← read? rest)
  | ['%'] => none
  | c :: rest => (read? rest).map (.literal c :: ·)

def monthNames : List String :=
  ["January", "February", "March", "April", "May", "June", "July", "August", "September", "October",
    "November", "December"]

/-- From Monday on. -/
def weekdayNames : List String :=
  ["Monday", "Tuesday", "Wednesday", "Thursday", "Friday", "Saturday", "Sunday"]

/-- A name in full or its first three letters. -/
def name (names : List String) (index : Nat) (full : Bool) : List Char :=
  let letters := (names.getD index "").toList
  if full then letters else letters.take 3

/-- Two places; the tens are one character, counted on from zero. -/
def twoPlaces (padding : Padding) (n : Nat) : List Char :=
  let tens :=
    if n / 10 = 0 then
      match padding with
      | .bare => []
      | .spaces => [' ']
      | .zeros => ['0']
    else [Char.ofNat ('0'.toNat + n / 10)]
  tens ++ [(n % 10).digitChar]

/-- A signed integer in so many places. Zeros stand after the sign, spaces before it. -/
def places (padding : Padding) (width : Nat) (sign : List Char) (n : Nat) : List Char :=
  let fill := width - sign.length - (Decimal.natText n).length
  match padding with
  | .bare => sign ++ Decimal.natText n
  | .spaces => List.replicate fill ' ' ++ sign ++ Decimal.natText n
  | .zeros => sign ++ List.replicate fill '0' ++ Decimal.natText n

/-- Four places; a year outside 0 to 9999 always shows its sign. -/
def yearText (padding : Padding) (year : Int) : List Char :=
  if 0 ≤ year && year ≤ 9999 then places padding 4 [] year.toNat
  else places padding 5 [if year < 0 then '-' else '+'] year.natAbs

/-- One numeric field. A century is kept in eight bits. -/
def fieldText (field : Field) (padding : Padding) (d : DateTime) : List Char :=
  match field with
  | .year => yearText padding d.date.year
  | .century => twoPlaces padding (d.date.year / 100 % 256).toNat
  | .yearOfCentury => twoPlaces padding (d.date.year % 100).toNat
  | .isoYear => yearText padding d.date.isoWeek.1
  | .isoYearOfCentury => twoPlaces padding (d.date.isoWeek.1 % 100).toNat
  | .quarter => Decimal.natText d.date.quarter
  | .month => twoPlaces padding d.date.month
  | .day => twoPlaces padding d.date.day
  | .dayOfYear => places padding 3 [] d.date.dayOfYear
  | .weekFromSunday => twoPlaces padding d.date.weekFromSunday
  | .weekFromMonday => twoPlaces padding d.date.weekFromMonday
  | .isoWeek => twoPlaces padding d.date.isoWeek.2
  | .weekdayFromSunday => Decimal.natText d.date.daysFromSunday
  | .weekdayFromMonday => Decimal.natText (d.date.daysFromMonday + 1)
  | .hour => twoPlaces padding d.time.hour
  | .hour12 => twoPlaces padding d.time.hour12
  | .minute => twoPlaces padding d.time.minute
  | .second => twoPlaces padding d.time.second
  | .nanosecond => places padding 9 [] d.time.nanosecond
  | .unixSeconds =>
    places padding 9 (Decimal.signText (decide (d.unixSeconds < 0))) d.unixSeconds.natAbs

def fractionText (digits : Nat) (t : TimeOfDay) : List Char :=
  Decimal.zeroPadded digits (t.nanosecond / Nat.pow 10 (9 - digits))

/-- How many digits show the whole fraction: 0, 3, 6 or 9. -/
def fractionDigits (t : TimeOfDay) : Nat :=
  if t.nanosecond = 0 then 0
  else if t.nanosecond % 1000000 = 0 then 3
  else if t.nanosecond % 1000 = 0 then 6
  else 9

def exactFraction (t : TimeOfDay) : List Char :=
  if fractionDigits t = 0 then [] else '.' :: fractionText (fractionDigits t) t

/-- The text of one item; a date-time has no zone to show. -/
def itemText? (item : PatternItem) (d : DateTime) : Option (List Char) :=
  match item with
  | .literal c => some [c]
  | .number field padding => some (fieldText field padding d)
  | .monthName full => some (name monthNames (d.date.month - 1) full)
  | .weekdayName full => some (name weekdayNames d.date.daysFromMonday full)
  | .halfOfDay capital =>
    some (if capital then (if d.time.isAfternoon then ['P', 'M'] else ['A', 'M'])
      else (if d.time.isAfternoon then ['p', 'm'] else ['a', 'm']))
  | .fraction digits point =>
    some ((if point then ['.'] else []) ++ fractionText digits d.time)
  | .fractionAsNeeded => some (exactFraction d.time)
  | .zone => none

/-- Writes a date-time; there is no text if the pattern asks for a zone. -/
def write? : Pattern → DateTime → Option (List Char)
  | [], _ => some []
  | item :: rest, d => do return (← itemText? item d) ++ (← write? rest d)

end Pattern

namespace DateTime

/-- Year, month and day; the time of day follows unless it is midnight. -/
def text (d : DateTime) : String :=
  let pattern :=
    if d.time = TimeOfDay.midnight then PatternItem.isoDate
    else PatternItem.isoDate ++ [.literal ' '] ++ PatternItem.clock
  String.ofList ((Pattern.write? pattern d).getD [])

end DateTime

end TextTemplate.Calendar
