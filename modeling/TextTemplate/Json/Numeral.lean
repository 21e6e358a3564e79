import TextTemplate.Json.Basic

namespace TextTemplate.Json

/-- Appends digits to a significand as long as it stays within 64 bits; also says how many. -/
def absorb (significand : Nat) : List Char → Nat × Nat
  | [] => (significand, 0)
  | c :: rest =>
    let longer := Nat.ofDigitChars 10 [c] significand
    if longer < Nat.pow 2 64 then
      let (result, count) := absorb longer rest
      (result, count + 1)
    else (significand, 0)

/-- Divides a finite number by a power of ten that a number can hold. -/
def divideByPower (x : Number) (power : Nat) : Number :=
  match x, Number.ofNat (Nat.pow 10 power) with
  | .finite u _, .finite p _ =>
    Number.ofRatio (decide (u < 0)) (u.natAbs * Number.unitsPerOne) p.natAbs
  | _, _ => x

/-- The number times a power of ten, in steps of at most 308 places. -/
def scale? (x : Number) (exponent : Int) : Option Number :=
  if x = Number.zero then some x
  else if 0 ≤ exponent then
    if exponent ≤ 308 then
      let scaled := x.mul (Number.ofNat (Nat.pow 10 exponent.toNat))
      if scaled.isFinite then some scaled else none
    else none
  else if -308 ≤ exponent then some (divideByPower x (-exponent).toNat)
  else scale? (divideByPower x 308) (exponent + 308)
termination_by exponent.natAbs
decreasing_by omega

/-- The exponent as written: a mark, an optional sign and digits. -/
def readExponent? : List Char → Option (Option (Bool × Nat) × List Char)
  | mark :: rest =>
    if mark = 'e' ∨ mark = 'E' then
      let (negative, unsigned) := Decimal.readSign rest
      let ds := unsigned.takeWhile Char.isDigit
      if ds.isEmpty then none
      else some (some (negative, Nat.ofDigitChars 10 ds 0), unsigned.dropWhile Char.isDigit)
    else some (none, mark :: rest)
  | [] => some (none, [])

/-- The fraction as written: a point and at least one digit. -/
def readFraction? : List Char → Option (Option (List Char) × List Char)
  | '.' :: rest =>
    let ds := rest.takeWhile Char.isDigit
    if ds.isEmpty then none else some (some ds, rest.dropWhile Char.isDigit)
  | cs => some (none, cs)

def withSign (negative : Bool) (x : Number) : Number :=
  if negative then x.neg else x

/-- An integer as written: it stays one if it has a sign-free form in 64 bits or is negative down to
`-2 ^ 63`. -/
def integral? (negative : Bool) (whole : List Char) : Option Json :=
  let (significand, taken) := absorb 0 whole
  if taken = whole.length then
    if !negative then some (.integer significand)
    else if 1 ≤ significand ∧ significand ≤ Nat.pow 2 63 then some (.integer (-significand))
    else some (.real (Number.ofNat significand).neg)
  else
    (scale? (Number.ofNat significand) (whole.length - taken : Nat)).map
      fun x => .real (withSign negative x)

/-- A number with a fraction or an exponent, rounded for the digits, for the power of ten and for each scaling. An
exponent beyond 31 bits stands for zero if it is negative or the digits are zero. -/
def fractional? (negative : Bool) (whole fraction : List Char) (exponent : Option (Bool × Nat)) :
    Option Json :=
  let (leading, taken) := absorb 0 whole
  let (significand, decimals) := absorb leading fraction
  let place : Int := (whole.length - taken : Nat) - (decimals : Int)
  match exponent with
  | none => (scale? (Number.ofNat significand) place).map fun x => .real (withSign negative x)
  | some (down, e) =>
    if Nat.pow 2 31 ≤ e then
      if significand ≠ 0 ∧ down = false then none else some (.real Number.zero)
    else
      (scale? (Number.ofNat significand) (if down then place - e else place + e)).map
        fun x => .real (withSign negative x)

/-- Reads a number: no plus sign, no superfluous leading zero, digits on both sides of a point. -/
def readNumber? (cs : List Char) : Option (Json × List Char) := do
  let (negative, unsigned) := match cs with
    | '-' :: rest => (true, rest)
    | _ => (false, cs)
  let whole := unsigned.takeWhile Char.isDigit
  if whole.isEmpty ∨ (whole.head? = some '0' ∧ 1 < whole.length) then none
  let (fraction, rest) ← readFraction? (unsigned.dropWhile Char.isDigit)
  let (exponent, rest) ← readExponent? rest
  let number ←
    if fraction.isNone && exponent.isNone then integral? negative whole
    else fractional? negative whole (fraction.getD []) exponent
  return (number, rest)

end TextTemplate.Json
