import TextTemplate.Number.Basic

namespace TextTemplate.Number

/-- The value of `digits · 10 ^ exponent` in units, as a quotient. -/
def decimalUnits (digits : Nat) (exponent : Int) : Nat × Nat :=
  (digits * Nat.pow 10 exponent.toNat * unitsPerOne, Nat.pow 10 (-exponent).toNat)

/-- The decimal rounds to this magnitude. -/
def readsBack (magnitude digits : Nat) (exponent : Int) : Bool :=
  let (num, den) := decimalUnits digits exponent
  nearest num den == magnitude

/-- The largest multiple of `10 ^ exponent` that is not above the magnitude. -/
def below (magnitude : Nat) (exponent : Int) : Nat :=
  let (num, den) := decimalUnits 1 exponent
  magnitude * den / num

/-- Twice the magnitude lies below the middle of `digits` and `digits + 1` in this place. -/
def nearerBelow (magnitude digits : Nat) (exponent : Int) : Bool :=
  let (num, den) := decimalUnits (2 * digits + 1) exponent
  2 * magnitude * den < num

/-- Of `low` and the next number, the one that reads back; if both do, the nearer. -/
def pick (low : Nat) (lowReads nextReads nearerLow : Bool) : Option Nat :=
  match lowReads, nextReads with
  | true, true => some (if nearerLow then low else low + 1)
  | true, false => some low
  | false, true => some (low + 1)
  | false, false => none

/-- Of the two neighbours of the magnitude in this place, the one that reads back. -/
def candidate? (magnitude : Nat) (exponent : Int) : Option (Nat × Int) :=
  let low := below magnitude exponent
  (pick low (readsBack magnitude low exponent) (readsBack magnitude (low + 1) exponent)
    (nearerBelow magnitude low exponent)).map (·, exponent)

/-- A power of ten at or just above the leading digit: `1233 / 4096` is the decimal logarithm of two up to
an error that stays far below one over all magnitudes. -/
def leadingPlace (magnitude : Nat) : Int :=
  ((magnitude.log2 : Int) - 1073) * 1233 / 4096 + 1

/-- The places in which a shortest decimal is looked for, from the coarsest on. -/
def places (magnitude : Nat) : List Int :=
  (List.range 20).map fun i : Nat => leadingPlace magnitude - (i : Int)

/-- The fewest digits that read back to a positive magnitude. Should no place give a candidate, the exact
decimal stands in for it. -/
def shortestDigits (magnitude : Nat) : Nat × Int :=
  ((places magnitude).findSome? (candidate? magnitude)).getD (magnitude * Nat.pow 5 1074, -1074)

/-- The shortest decimal of so many units. -/
def decimalOf (units : Int) : Decimal :=
  if units = 0 then ⟨false, 0, 0⟩
  else
    let found := shortestDigits units.natAbs
    Decimal.stripped (decide (units < 0)) found.1 found.2

/-- The form in which templates print a number. -/
def text : Number → String
  | .finite u _ => String.ofList (decimalOf u).text
  | .infinite negative => if negative then "-Infinity" else "Infinity"
  | .nan => "NaN"

end TextTemplate.Number
