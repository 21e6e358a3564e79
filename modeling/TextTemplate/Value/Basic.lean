import TextTemplate.Bindings
import TextTemplate.Calendar.Pattern
import TextTemplate.Json.Basic
import TextTemplate.Number.Reading
import TextTemplate.Number.Shortest
import TextTemplate.Text.Blank

namespace TextTemplate

/-- What templates work on. Objects keep their fields in order, each name once. -/
inductive Value where
  | nil
  | boolean (b : Bool)
  | number (n : Number)
  | string (s : String)
  | date (d : Calendar.DateTime)
  | array (items : List Value)
  | object (fields : List (String × Value))

namespace Value

/-- The name of the value's type in messages. -/
def typeName : Value → String
  | nil => "nil"
  | boolean _ => "boolean"
  | number _ => "number"
  | string _ => "string"
  | date _ => "date"
  | array _ => "array"
  | object _ => "object"

/-- Nothing, false, zero, what is not a number and the empty string do not count as true. -/
def isTruthy : Value → Bool
  | nil => false
  | boolean b => b
  | number n => n.isTruthy
  | string s => !s.isEmpty
  | date _ | array _ | object _ => true

/-- The characters of numerals. -/
def isNumeralChar (c : Char) : Bool :=
  c.isDigit || c == '+' || c == '-' || c == '.' || c == 'e' || c == 'E'

/-- The finite number that a text writes, white space around it aside. Words are not read as numbers. -/
def readNumber? (s : String) : Option Number :=
  let cs := Text.trim s.toList
  if cs.isEmpty || !cs.all isNumeralChar then none
  else (Number.read? cs).filter Number.isFinite

/-- Numbers, and strings that write a finite one. -/
def asNumber? : Value → Option Number
  | number n => some n
  | string s => readNumber? s
  | _ => none

/-- The value in arithmetic: what is no number counts as zero. -/
def arithmetic (v : Value) : Number :=
  v.asNumber?.getD Number.zero

def field? (v : Value) (name : String) : Option Value :=
  match v with
  | object fields => fields.lookup name
  | _ => none

mutual

/-- The form in which a value is printed: nothing for nil, the elements of an array back to back. -/
def text : Value → String
  | nil => ""
  | boolean b => if b then "true" else "false"
  | number n => n.text
  | string s => s
  | date d => d.text
  | array items => textOfAll items
  | object _ => "[object]"

def textOfAll : List Value → String
  | [] => ""
  | v :: rest => v.text ++ textOfAll rest

end

mutual

/-- Equality of templates: values of one type by content, others never. The order of fields does not
count. -/
def looseEq : Value → Value → Bool
  | nil, nil => true
  | boolean a, boolean b => a == b
  | number a, number b => a.equal b
  | string a, string b => a == b
  | date a, date b => a == b
  | array as, array bs => allLooseEq as bs
  | object as, object bs => as.length == bs.length && fieldsLooseEq as bs
  | _, _ => false

def allLooseEq : List Value → List Value → Bool
  | [], [] => true
  | a :: as, b :: bs => a.looseEq b && allLooseEq as bs
  | _, _ => false

/-- Every field on the left has an equal one on the right. -/
def fieldsLooseEq : List (String × Value) → List (String × Value) → Bool
  | [], _ => true
  | (name, a) :: rest, bs =>
    (match bs.lookup name with
      | some b => a.looseEq b
      | none => false) && fieldsLooseEq rest bs

end

mutual

/-- The value that a JSON text writes. A repeated name keeps its first place and its last value. -/
def ofJson : Json → Value
  | .null => nil
  | .boolean b => boolean b
  | .integer n => number (Number.ofInt n)
  | .real x => number x
  | .string s => string s
  | .array items => array (ofJsonItems items)
  | .object members => object (ofJsonMembers members [])

def ofJsonItems : List Json → List Value
  | [] => []
  | item :: rest => ofJson item :: ofJsonItems rest

def ofJsonMembers : List (String × Json) → List (String × Value) → List (String × Value)
  | [], fields => fields
  | (name, member) :: rest, fields =>
    ofJsonMembers rest (Bindings.insert name (ofJson member) fields)

end

end Value

end TextTemplate
