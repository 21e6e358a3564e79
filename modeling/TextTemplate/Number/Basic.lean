import TextTemplate.Decimal

namespace TextTemplate

namespace Number

/-- One, in units. -/
def unitsPerOne : Nat := Nat.pow 2 1074

/-- `2 ^ 1024` in units: from here on a number is infinite. -/
def limit : Nat := Nat.pow 2 2098

/-- A magnitude that a number can hold: at most 53 significant binary digits, below the limit. -/
def Storable (units : Nat) : Prop :=
  Nat.pow 2 (units.log2 - 52) ∣ units ∧ units < limit

end Number

/-- Binary floating point with 53 significant digits. A finite number is kept exactly, as a whole number of units of
`2 ^ -1074`, and there is one zero. -/
inductive Number where
  | finite (units : Int) (storable : Number.Storable units.natAbs)
  | infinite (negative : Bool)
  | nan
deriving DecidableEq

namespace Number

/-- The whole number nearest to `num / den`; a tie goes to the even neighbour. -/
def roundHalfEven (num den : Nat) : Nat :=
  if 2 * (num % den) < den then num / den
  else if den < 2 * (num % den) then num / den + 1
  else num / den + num / den % 2

theorem roundHalfEven_le (num den : Nat) : roundHalfEven num den ≤ num / den + 1 := by
  unfold roundHalfEven
  split
  · omega
  · split <;> omega

/-- How many binary digits of the quotient lie below the 53 that are kept. -/
def droppedPlaces (num den : Nat) : Nat :=
  (num / den).log2 - 52

/-- The magnitude of 53 significant binary digits nearest to `num / den` units. -/
def nearest (num den : Nat) : Nat :=
  roundHalfEven num (den * Nat.pow 2 (droppedPlaces num den)) * Nat.pow 2 (droppedPlaces num den)

theorem pow_two_add (a b : Nat) : Nat.pow 2 (a + b) = Nat.pow 2 a * Nat.pow 2 b :=
  Nat.pow_add 2 a b

theorem pow_two_pos (n : Nat) : 0 < Nat.pow 2 n :=
  Nat.two_pow_pos n

theorem unitsPerOne_pos : 0 < unitsPerOne := by
  delta unitsPerOne
  apply pow_two_pos

theorem kept_le (num den : Nat) :
    roundHalfEven num (den * Nat.pow 2 (droppedPlaces num den)) ≤ Nat.pow 2 53 := by
  have h := roundHalfEven_le num (den * Nat.pow 2 (droppedPlaces num den))
  have hlog : num / den < Nat.pow 2 ((num / den).log2 + 1) := Nat.lt_log2_self
  have hpow : Nat.pow 2 ((num / den).log2 + 1) ≤ Nat.pow 2 (53 + droppedPlaces num den) :=
    Nat.pow_le_pow_right (by decide) (by unfold droppedPlaces; omega)
  have hlt : num / (den * Nat.pow 2 (droppedPlaces num den)) < Nat.pow 2 53 := by
    rw [← Nat.div_div_eq_div_mul, Nat.div_lt_iff_lt_mul (pow_two_pos _), ← pow_two_add]
    exact Nat.lt_of_lt_of_le hlog hpow
  exact Nat.le_trans h hlt

/-- A magnitude of at most 53 binary digits stays one when it is shifted. -/
theorem dvd_of_le_two_pow (m k : Nat) (h : m ≤ Nat.pow 2 53) :
    Nat.pow 2 ((m * Nat.pow 2 k).log2 - 52) ∣ m * Nat.pow 2 k := by
  by_cases h0 : m = 0
  · simp [h0]
  have hne : m * Nat.pow 2 k ≠ 0 := Nat.mul_ne_zero h0 (Nat.pos_iff_ne_zero.1 (pow_two_pos k))
  by_cases hm : m = Nat.pow 2 53
  · rw [hm, ← pow_two_add]
    have hlog : (Nat.pow 2 (53 + k)).log2 = 53 + k := Nat.log2_two_pow
    rw [hlog]
    exact Nat.pow_dvd_pow 2 (by omega)
  · have hlt : m * Nat.pow 2 k < Nat.pow 2 (53 + k) := by
      rw [pow_two_add]
      exact Nat.mul_lt_mul_of_pos_right (Nat.lt_of_le_of_ne h hm) (pow_two_pos k)
    have hlog := (Nat.log2_lt hne).2 hlt
    exact Nat.dvd_trans (Nat.pow_dvd_pow 2 (by omega)) (Nat.dvd_mul_left (Nat.pow 2 k) m)

theorem storable_nearest (num den : Nat) (h : nearest num den < limit) :
    Storable (nearest num den) :=
  ⟨dvd_of_le_two_pow _ _ (kept_le num den), h⟩

/-- `magnitude` units with a sign. -/
def signed (negative : Bool) (magnitude : Nat) : Int :=
  if negative then -magnitude else magnitude

theorem natAbs_signed (negative : Bool) (magnitude : Nat) :
    (signed negative magnitude).natAbs = magnitude := by
  cases negative <;> simp [signed]

/-- The number nearest to `± num / den` units. -/
def ofRatio (negative : Bool) (num den : Nat) : Number :=
  if h : nearest num den < limit then
    .finite (signed negative (nearest num den))
      (by rw [natAbs_signed]; exact storable_nearest num den h)
  else .infinite negative

def ofUnits (units : Int) : Number :=
  ofRatio (units < 0) units.natAbs 1

def zero : Number :=
  .finite 0 ⟨by simp, by decide +kernel⟩

def ofNat (n : Nat) : Number :=
  ofRatio false (n * unitsPerOne) 1

def ofInt (n : Int) : Number :=
  ofRatio (n < 0) (n.natAbs * unitsPerOne) 1

/-- The number nearest to a decimal. The two shortcuts answer for decimals beyond the largest number and
below half a unit without computing their powers of ten. -/
def ofDecimal (d : Decimal) : Number :=
  if d.digits = 0 then zero
  else if 400 ≤ d.exponent then .infinite d.negative
  else if d.exponent ≤ -(d.digits.log2 + 1100 : Int) then zero
  else
    ofRatio d.negative (d.digits * Nat.pow 10 d.exponent.toNat * unitsPerOne)
      (Nat.pow 10 (-d.exponent).toNat)

def isFinite : Number → Bool
  | .finite _ _ => true
  | _ => false

def neg : Number → Number
  | .finite u h => .finite (-u) (by rw [Int.natAbs_neg]; exact h)
  | .infinite negative => .infinite !negative
  | .nan => .nan

def add : Number → Number → Number
  | .finite a _, .finite b _ => ofUnits (a + b)
  | .nan, _ | _, .nan => .nan
  | .infinite a, .infinite b => if a = b then .infinite a else .nan
  | .infinite a, .finite _ _ => .infinite a
  | .finite _ _, .infinite b => .infinite b

def sub (a b : Number) : Number :=
  a.add b.neg

def mul : Number → Number → Number
  | .finite a _, .finite b _ => ofRatio (a * b < 0) (a * b).natAbs unitsPerOne
  | .nan, _ | _, .nan => .nan
  | .infinite a, .infinite b => .infinite (a != b)
  | .infinite a, .finite b _ => if b = 0 then .nan else .infinite (a != decide (b < 0))
  | .finite a _, .infinite b => if a = 0 then .nan else .infinite (decide (a < 0) != b)

/-- Equality of templates: what is not a number equals nothing. -/
def equal (a b : Number) : Bool :=
  a != .nan && a == b

/-- The order of two numbers; there is none beside what is not a number. -/
def compare? : Number → Number → Option Ordering
  | .nan, _ | _, .nan => none
  | .finite a _, .finite b _ => some (compare a b)
  | .infinite a, .infinite b => some (compare b.toNat a.toNat)
  | .infinite a, .finite _ _ => some (if a then .lt else .gt)
  | .finite _ _, .infinite b => some (if b then .gt else .lt)

def isTruthy (n : Number) : Bool :=
  n != .nan && n != zero

/-- The whole part, toward zero, of a finite number. -/
def truncate? : Number → Option Int
  | .finite u _ => some (u.tdiv unitsPerOne)
  | _ => none

/-- The number as a place in an array: finite, whole and not negative. A place too large for a
64-bit word becomes the largest one. -/
def index? : Number → Option Nat
  | .finite u _ =>
    if 0 ≤ u && u.natAbs % unitsPerOne == 0 then
      some (min (u.natAbs / unitsPerOne) (Nat.pow 2 64 - 1))
    else none
  | _ => none

end Number

end TextTemplate
