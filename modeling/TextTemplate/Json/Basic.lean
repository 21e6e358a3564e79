import TextTemplate.Number.Basic

namespace TextTemplate

/-- Objects keep all their members in order, also those with a repeated name. -/
inductive Json where
  | null
  | boolean (b : Bool)
  /-- A number written without point and exponent that fits into 64 bits, signed or unsigned. -/
  | integer (n : Int)
  | real (x : Number)
  | string (s : String)
  | array (items : List Json)
  | object (members : List (String × Json))

end TextTemplate
