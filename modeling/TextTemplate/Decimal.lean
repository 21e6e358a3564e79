namespace TextTemplate

/-- The number `± digits · 10 ^ exponent`. -/
structure Decimal where
  negative : Bool
  digits : Nat
  exponent : Int
deriving DecidableEq, Repr

namespace Decimal

/-- A natural in base ten, without superfluous zeros. -/
def natText (n : Nat) : List Char :=
  Nat.toDigits 10 n

/-- Digits padded with zeros on the left to at least `width`. -/
def zeroPadded (width n : Nat) : List Char :=
  List.replicate (width - (natText n).length) '0' ++ natText n

/-- `n · 10 ^ -places` with exactly `places` decimals, and no point if there are none. -/
def fixedText (n places : Nat) : List Char :=
  if places = 0 then natText n
  else
    let ds := zeroPadded (places + 1) n
    ds.take (ds.length - places) ++ '.' :: ds.drop (ds.length - places)

def signText (negative : Bool) : List Char :=
  if negative then ['-'] else []

/-- Positional text at every size: no decimal carries an exponent. -/
def text (d : Decimal) : List Char :=
  signText d.negative ++
    if 0 ≤ d.exponent then natText (d.digits * Nat.pow 10 d.exponent.toNat)
    else fixedText d.digits (-d.exponent).toNat

/-- The same number with no zero at the end of its digits. -/
def stripped (negative : Bool) (digits : Nat) (exponent : Int) : Decimal :=
  if h : digits ≠ 0 ∧ digits % 10 = 0 then stripped negative (digits / 10) (exponent + 1)
  else ⟨negative, digits, exponent⟩
termination_by digits
decreasing_by omega

/-- An optional sign in front; a minus makes the number negative. -/
def readSign : List Char → Bool × List Char
  | '-' :: rest => (true, rest)
  | '+' :: rest => (false, rest)
  | cs => (false, cs)

/-- The digits after a point, if there is one, and what follows them. -/
def readFraction : List Char → List Char × List Char
  | '.' :: rest => (rest.takeWhile Char.isDigit, rest.dropWhile Char.isDigit)
  | cs => ([], cs)

/-- Nothing, or `e`, an optional sign and digits to the end. -/
def readExponent? : List Char → Option Int
  | [] => some 0
  | mark :: rest =>
    if mark == 'e' || mark == 'E' then
      let (negative, ds) := readSign rest
      if ds.isEmpty || !ds.all Char.isDigit then none
      else
        let n : Int := Nat.ofDigitChars 10 ds 0
        some (if negative then -n else n)
    else none

/-- Reads an optional sign, digits with at most one point and at least one digit beside it, and an
optional exponent. All the text has to be used. -/
def read? (cs : List Char) : Option Decimal :=
  let (negative, unsigned) := readSign cs
  let whole := unsigned.takeWhile Char.isDigit
  let (fraction, rest) := readFraction (unsigned.dropWhile Char.isDigit)
  if whole.isEmpty && fraction.isEmpty then none
  else
    (readExponent? rest).map fun e =>
      ⟨negative, Nat.ofDigitChars 10 (whole ++ fraction) 0, e - fraction.length⟩

end Decimal

end TextTemplate
