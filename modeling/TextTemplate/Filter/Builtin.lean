import TextTemplate.Calendar.Reading
import TextTemplate.Filter.Basic
import TextTemplate.Money
import TextTemplate.Text.Uppercase

namespace TextTemplate.Filter

open Calendar

/-- A filter without arguments. Their number is checked before anything else. -/
def plain (f : Value → Except FilterError Value) : Filter
  | input, [] => f input
  | _, args => .error (.argumentCount 0 args.length)

def withArgument (f : Value → Value → Except FilterError Value) : Filter
  | input, [a] => f input a
  | _, args => .error (.argumentCount 1 args.length)

def withTwoArguments (f : Value → Value → Value → Except FilterError Value) : Filter
  | input, [a, b] => f input a b
  | _, args => .error (.argumentCount 2 args.length)

/-- The amount that a value is worth; what is no finite number is worth nothing. -/
def amountText (input : Value) : String :=
  match input.asNumber? with
  | some (.finite units _) => Number.moneyText units
  | _ => "0.00"

def money : Filter :=
  plain fun input => .ok (.string (amountText input))

def total (items : List Value) : Number :=
  items.foldl (fun acc item => acc.add item.arithmetic) Number.zero

/-- The sum of an array; of anything else it is zero. -/
def sum : Filter :=
  plain fun input =>
    match input with
    | .array items => .ok (.number (total items))
    | _ => .ok (.number Number.zero)

def minus : Filter :=
  withArgument fun input a => .ok (.number (input.arithmetic.sub a.arithmetic))

def times : Filter :=
  withArgument fun input a => .ok (.number (input.arithmetic.mul a.arithmetic))

/-- Strings in upper case; other values as they are. -/
def upcase : Filter :=
  plain fun input =>
    match input with
    | .string s => .ok (.string (Text.upper s))
    | other => .ok other

/-- The words for the time of the render, in any case of their letters. -/
def meansNow (cs : List Char) : Bool :=
  let word := cs.map Char.toLower
  word == ['n', 'o', 'w'] || word == ['t', 'o', 'd', 'a', 'y']

/-- The date-time that a value stands for: dates, texts that write one, and seconds since the beginning of
1970, where a fraction does not count. -/
def asDate? (now : DateTime) : Value → Option DateTime
  | .date d => some d
  | .string s =>
    let cs := Text.trim s.toList
    if meansNow cs then some now else Reading.dateTime? cs
  | .number n => n.truncate?.bind DateTime.ofUnixSeconds?
  | _ => none

def writeDate (pattern : String) (d : DateTime) : Except FilterError Value :=
  match Pattern.read? pattern.toList with
  | none => .error (.format ("invalid date pattern '" ++ pattern ++ "'"))
  | some items =>
    match Pattern.write? items d with
    | some cs => .ok (.string (String.ofList cs))
    | none => .error (.format ("pattern '" ++ pattern ++ "' needs a timezone"))

def date (now : DateTime) : Filter :=
  withArgument fun input format =>
    match format with
    | .string pattern =>
      match asDate? now input with
      | some d => writeDate pattern d
      | none =>
        .error (.format ("cannot interpret " ++ input.typeName ++ " '" ++ input.text ++ "' as a date"))
    | other => .error (.typeMismatch ("format must be a string, got " ++ other.typeName))

/-- The elements of an array; nil has none. -/
def elements (name : String) : Value → Except FilterError (List Value)
  | .nil => .ok []
  | .array items => .ok items
  | other => .error (.typeMismatch (name ++ " expects an array, got " ++ other.typeName))

/-- The elements of which a field equals a value. -/
def whereEqual : Filter :=
  withTwoArguments fun input name target => do
    let items ← elements "where" input
    return .array <| items.filter fun item =>
      match item.field? name.text with
      | some v => v.looseEq target
      | none => false

/-- A field of every element, nil where there is none. -/
def map : Filter :=
  withArgument fun input name => do
    let items ← elements "map" input
    return .array (items.map fun item => (item.field? name.text).getD .nil)

end TextTemplate.Filter

namespace TextTemplate.Registry

/-- The registry of the filters above, for renders that take place at `now`. -/
def builtin (now : Calendar.DateTime) : Registry :=
  ⟨[("money", Filter.money), ("sum", Filter.sum), ("minus", Filter.minus), ("times", Filter.times),
    ("upcase", Filter.upcase), ("date", Filter.date now), ("where", Filter.whereEqual),
    ("map", Filter.map)]⟩

end TextTemplate.Registry
