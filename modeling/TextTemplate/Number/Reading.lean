import TextTemplate.Number.Basic

namespace TextTemplate.Number

/-- The number that a word in small letters stands for. -/
def ofWord? (negative : Bool) (word : List Char) : Option Number :=
  if word == ['i', 'n', 'f'] || word == ['i', 'n', 'f', 'i', 'n', 'i', 't', 'y'] then
    some (.infinite negative)
  else if word == ['n', 'a', 'n'] then some .nan
  else none

/-- Reads a numeral, which is infinite beyond the largest number, or a word with an optional sign, whatever the
case of its letters. -/
def read? (cs : List Char) : Option Number :=
  match Decimal.read? cs with
  | some d => some (ofDecimal d)
  | none =>
    let (negative, word) := Decimal.readSign cs
    ofWord? negative (word.map Char.toLower)

end TextTemplate.Number
