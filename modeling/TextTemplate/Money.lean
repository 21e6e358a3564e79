import TextTemplate.Number.Shortest

namespace TextTemplate

/-- An amount of money, the decimal `± mantissa · 10 ^ -places`. -/
structure Amount where
  negative : Bool
  mantissa : Nat
  places : Nat
deriving DecidableEq, Repr

namespace Amount

/-- Mantissas stay below this bound. -/
def capacity : Nat := Nat.pow 2 96

/-- The quotient to the nearest whole number, a half goes up. -/
def roundHalfUp (num den : Nat) : Nat :=
  (2 * num + den) / (2 * den)

/-- Reads a decimal: places beyond the 28th are rounded off. There is no amount for a mantissa beyond the
capacity. -/
def ofDecimal? (d : Decimal) : Option Amount :=
  let decimals := (-d.exponent).toNat
  let places := min decimals 28
  let mantissa := roundHalfUp (d.digits * Nat.pow 10 d.exponent.toNat) (Nat.pow 10 (decimals - places))
  if mantissa < capacity then some ⟨d.negative, mantissa, places⟩ else none

/-- At most two places; a half goes away from zero. -/
def toCents (a : Amount) : Amount :=
  if a.places ≤ 2 then a
  else ⟨a.negative, roundHalfUp a.mantissa (Nat.pow 10 (a.places - 2)), 2⟩

/-- Brought up to two places, as far as the mantissa has room for more digits. -/
def widened (a : Amount) : Amount :=
  if a.places < 2 ∧ a.mantissa * 10 < capacity then
    widened ⟨a.negative, a.mantissa * 10, a.places + 1⟩
  else a
termination_by 2 - a.places

/-- Zero carries no sign. -/
def text (a : Amount) : List Char :=
  Decimal.signText (a.negative && a.mantissa != 0) ++ Decimal.fixedText a.mantissa a.places

end Amount

namespace Number

/-- Two decimals of the exact binary value; a half goes to the even neighbour. -/
def exactCents (units : Int) : List Char :=
  Decimal.signText (decide (units < 0)) ++
    Decimal.fixedText (roundHalfEven (units.natAbs * 100) unitsPerOne) 2

/-- So many units as money: the rounded shortest decimal, or the exact value where an amount cannot hold
it. -/
def moneyText (units : Int) : String :=
  String.ofList <|
    match Amount.ofDecimal? (decimalOf units) with
    | some amount => amount.toCents.widened.text
    | none => exactCents units

end Number

end TextTemplate
