import TextTemplate.Text.UppercaseTable

namespace TextTemplate.Text

def Uppercase.Run.covers (r : Uppercase.Run) (n : Nat) : Bool :=
  r.first ≤ n && n ≤ r.last && (n - r.first) % r.stride == 0

/-- The upper case of one character: longer forms first, then the fixed distances, else itself. -/
def upperChar (c : Char) : List Char :=
  match Uppercase.expansions.lookup c.toNat with
  | some longer => longer.toList
  | none =>
    match Uppercase.runs.find? (·.covers c.toNat) with
    | some run => [Char.ofNat (c.toNat + run.shift).toNat]
    | none => [c]

def upper (s : String) : String :=
  String.ofList (s.toList.flatMap upperChar)

end TextTemplate.Text
