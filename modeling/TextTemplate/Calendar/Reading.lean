import TextTemplate.Calendar.DateTime
import TextTemplate.Text.Blank

namespace TextTemplate.Calendar.Reading

open TextTemplate.Text

/-- One to `width` digits. -/
def number? (width : Nat) (cs : List Char) : Option (Nat × List Char) :=
  let ds := (cs.take width).takeWhile Char.isDigit
  if ds.isEmpty then none else some (Nat.ofDigitChars 10 ds 0, cs.drop ds.length)

def digits? (width : Nat) (cs : List Char) : Option (Nat × List Char) :=
  let ds := (cs.take width).takeWhile Char.isDigit
  if ds.length = width then some (Nat.ofDigitChars 10 ds 0, cs.drop width) else none

/-- Any number of digits, at least one. -/
def allDigits? (cs : List Char) : Option (Nat × List Char) :=
  let ds := cs.takeWhile Char.isDigit
  if ds.isEmpty then none else some (Nat.ofDigitChars 10 ds 0, cs.dropWhile Char.isDigit)

def char? (c : Char) : List Char → Option (List Char)
  | d :: rest => if d = c then some rest else none
  | [] => none

/-- One or two digits, after white space. -/
def pair? (cs : List Char) : Option (Nat × List Char) :=
  number? 2 (trimStart cs)

/-- Up to four digits, or any number of them after a sign. -/
def year? (cs : List Char) : Option (Int × List Char) :=
  match trimStart cs with
  | '-' :: rest => (allDigits? rest).map fun (n, r) => (-(n : Int), r)
  | '+' :: rest => (allDigits? rest).map fun (n, r) => ((n : Int), r)
  | rest => (number? 4 rest).map fun (n, r) => ((n : Int), r)

def date? (cs : List Char) : Option (Date × List Char) := do
  let (year, cs) ← year? cs
  let cs ← char? '-' cs
  let (month, cs) ← pair? cs
  let cs ← char? '-' cs
  let (day, cs) ← pair? cs
  let date ← Date.ofYearMonthDay? year month day
  return (date, cs)

def clock? (cs : List Char) : Option (TimeOfDay × List Char) := do
  let (hour, cs) ← pair? cs
  let cs ← char? ':' cs
  let (minute, cs) ← pair? cs
  let cs ← char? ':' cs
  let (second, cs) ← pair? cs
  let time ← TimeOfDay.ofClock? hour minute second 0
  return (time, cs)

/-- The value, if all text was used. -/
def complete? {α : Type} : α × List Char → Option α
  | (a, []) => some a
  | (_, _ :: _) => none

def day? (cs : List Char) : Option DateTime := do
  let date ← (date? cs).bind complete?
  return ⟨date, TimeOfDay.midnight⟩

def joined? (cs : List Char) : Option DateTime := do
  let (date, cs) ← date? cs
  let cs ← char? 'T' cs
  let time ← (clock? cs).bind complete?
  return ⟨date, time⟩

/-- White space, or nothing, between day and time. -/
def spaced? (cs : List Char) : Option DateTime := do
  let (date, cs) ← date? cs
  let time ← (clock? (trimStart cs)).bind complete?
  return ⟨date, time⟩

/-- A fraction of a second in nanoseconds: digits beyond the ninth do not count. -/
def fraction? : List Char → Option (Nat × List Char)
  | '.' :: rest =>
    let ds := rest.takeWhile Char.isDigit
    if ds.isEmpty then none
    else
      let kept := ds.take 9
      some (Nat.ofDigitChars 10 kept 0 * Nat.pow 10 (9 - kept.length), rest.dropWhile Char.isDigit)
  | cs => some (0, cs)

/-- The offset at the end: `Z`, or a sign with hours and minutes. It is checked and not used. -/
def offset? : List Char → Option Unit
  | ['Z'] | ['z'] => some ()
  | sign :: rest =>
    if sign = '+' ∨ sign = '-' ∨ sign = '\u2212' then do
      let (hours, rest) ← digits? 2 rest
      let rest ← char? ':' rest
      let (minutes, rest) ← digits? 2 rest
      if hours ≤ 23 ∧ minutes ≤ 59 ∧ rest.isEmpty then some () else none
    else none
  | [] => none

/-- The Internet form; the result is what the clock on the wall shows, whatever the offset. -/
def internet? (cs : List Char) : Option DateTime := do
  let (year, cs) ← digits? 4 cs
  let cs ← char? '-' cs
  let (month, cs) ← digits? 2 cs
  let cs ← char? '-' cs
  let (day, cs) ← digits? 2 cs
  let cs ← (char? 'T' cs).or ((char? 't' cs).or (char? ' ' cs))
  let (hour, cs) ← digits? 2 cs
  let cs ← char? ':' cs
  let (minute, cs) ← digits? 2 cs
  let cs ← char? ':' cs
  let (second, cs) ← digits? 2 cs
  let (nanosecond, cs) ← fraction? cs
  offset? cs
  let date ← Date.ofYearMonthDay? year month day
  let time ← TimeOfDay.ofClock? hour minute second nanosecond
  return ⟨date, time⟩

/-- Reads a date-time in the first form that fits. -/
def dateTime? (cs : List Char) : Option DateTime :=
  (day? cs).or ((joined? cs).or ((spaced? cs).or (internet? cs)))

end TextTemplate.Calendar.Reading
