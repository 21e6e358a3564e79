import TextTemplate.Json.Numeral

namespace TextTemplate.Json

def isBlank (c : Char) : Bool :=
  c == ' ' || c == '\t' || c == '\n' || c == '\r'

def skipBlank (cs : List Char) : List Char :=
  cs.dropWhile isBlank

def hexDigit? (c : Char) : Option Nat :=
  if c.isDigit then some (c.toNat - '0'.toNat)
  else if 'a' ≤ c ∧ c ≤ 'f' then some (c.toNat - 'a'.toNat + 10)
  else if 'A' ≤ c ∧ c ≤ 'F' then some (c.toNat - 'A'.toNat + 10)
  else none

/-- The number that four hexadecimal digits write. -/
def hexUnit? (a b c d : Char) : Option Nat := do
  return (((← hexDigit? a) * 16 + (← hexDigit? b)) * 16 + (← hexDigit? c)) * 16 + (← hexDigit? d)

/-- The character that a letter after a backslash stands for. -/
def unescape? : Char → Option Char
  | '\x22' => some '\x22'
  | '\\' => some '\\'
  | '/' => some '/'
  | 'b' => some '\x08'
  | 'f' => some '\x0c'
  | 'n' => some '\n'
  | 'r' => some '\r'
  | 't' => some '\t'
  | _ => none

/-- The rest of a string after its opening quote, up to the closing one. -/
def readString? : List Char → Option (List Char × List Char)
  | [] => none
  | '\x22' :: rest => some ([], rest)
  | '\\' :: 'u' :: a :: b :: c :: d :: rest => do
    let unit ← hexUnit? a b c d
    if 0xDC00 ≤ unit ∧ unit ≤ 0xDFFF then none
    else if 0xD800 ≤ unit ∧ unit ≤ 0xDBFF then
      match rest with
      | '\\' :: 'u' :: e :: f :: g :: h :: rest => do
        let low ← hexUnit? e f g h
        if 0xDC00 ≤ low ∧ low ≤ 0xDFFF then
          let (text, after) ← readString? rest
          return (Char.ofNat (0x10000 + (unit - 0xD800) * 0x400 + (low - 0xDC00)) :: text, after)
        else none
      | _ => none
    else
      let (text, after) ← readString? rest
      return (Char.ofNat unit :: text, after)
  | '\\' :: c :: rest => do
    let plain ← unescape? c
    let (text, after) ← readString? rest
    return (plain :: text, after)
  | c :: rest =>
    if c.toNat < 0x20 ∨ c = '\\' then none
    else do
      let (text, after) ← readString? rest
      return (c :: text, after)

/-- Items with commas between them, up to the closing bracket. -/
def readItems? {α : Type} (item : List Char → Option (α × List Char)) (close : Char)
    (cs : List Char) : Option (List α × List Char) :=
  match item (skipBlank cs) with
  | none => none
  | some (first, rest) =>
    match skipBlank rest with
    | [] => none
    | c :: after =>
      if c = close then some ([first], after)
      else if c = ',' then
        if after.length < cs.length then
          (readItems? item close after).map fun (items, r) => (first :: items, r)
        else none
      else none
termination_by cs.length

/-- The inside of brackets: nothing, or items. -/
def readBracketed? {α : Type} (item : List Char → Option (α × List Char)) (close : Char)
    (cs : List Char) : Option (List α × List Char) :=
  match skipBlank cs with
  | [] => none
  | c :: rest => if c = close then some ([], rest) else readItems? item close (c :: rest)

def readMember? (value : List Char → Option (Json × List Char)) :
    List Char → Option ((String × Json) × List Char)
  | '\x22' :: rest => do
    let (name, rest) ← readString? rest
    match skipBlank rest with
    | ':' :: rest => do
      let (v, rest) ← value (skipBlank rest)
      return ((String.ofList name, v), rest)
    | _ => none
  | _ => none

/-- A value that holds at most `depth` levels of arrays and objects. -/
def readValue? (depth : Nat) (cs : List Char) : Option (Json × List Char) :=
  match cs with
  | 'n' :: 'u' :: 'l' :: 'l' :: rest => some (.null, rest)
  | 't' :: 'r' :: 'u' :: 'e' :: rest => some (.boolean true, rest)
  | 'f' :: 'a' :: 'l' :: 's' :: 'e' :: rest => some (.boolean false, rest)
  | '\x22' :: rest => (readString? rest).map fun (s, r) => (.string (String.ofList s), r)
  | '[' :: rest =>
    match depth with
    | 0 => none
    | inner + 1 =>
      (readBracketed? (readValue? inner) ']' rest).map fun (items, r) => (.array items, r)
  | '\x7b' :: rest =>
    match depth with
    | 0 => none
    | inner + 1 =>
      (readBracketed? (readMember? (readValue? inner)) '\x7d' rest).map
        fun (members, r) => (.object members, r)
  | _ => readNumber? cs

/-- Levels of arrays and objects that a text may hold. -/
def maxDepth : Nat := 127

/-- Reads JSON without comments, superfluous commas, bare control characters and unpaired surrogates. -/
def read? (text : String) : Option Json :=
  match readValue? maxDepth (skipBlank text.toList) with
  | some (json, rest) => if (skipBlank rest).isEmpty then some json else none
  | none => none

end TextTemplate.Json
