import Mathlib.Data.Rat.Floor
import TextTemplate.Money
import TextTemplate.Proofs.Number.ReadBack

namespace TextTemplate

/-- The whole number nearest to a quantity, the one farther from zero if two are equally near. -/
def RoundsAway (q : ℚ) (n : ℤ) : Prop :=
  |q - n| ≤ 1 / 2 ∧ (|q - n| = 1 / 2 → |q| < |(n : ℚ)|)

theorem roundsAway_neg {q : ℚ} {n : ℤ} : RoundsAway (-q) n ↔ RoundsAway q (-n) := by
  have hdistance : |-q - n| = |q - ((-n : ℤ) : ℚ)| := by
    rw [← abs_neg, Int.cast_neg]
    congr 1
    ring
  rw [RoundsAway, RoundsAway, hdistance, abs_neg, Int.cast_neg, abs_neg]

theorem roundsAway_of_nonneg {q : ℚ} {n : ℤ} (h : 0 ≤ q) : RoundsAway q n ↔ n = ⌊q + 1 / 2⌋₊ := by
  rw [Int.natCast_floor_eq_floor (by linarith), eq_comm, Int.floor_eq_iff]
  constructor
  · rintro ⟨hnear, htie⟩
    obtain ⟨hlow, hhigh⟩ := abs_le.mp hnear
    refine ⟨by linarith, ?_⟩
    by_contra hge
    -- Half way above `n`, which is no number farther from zero then.
    have hhalf : q - n = 1 / 2 := by linarith
    have haway := htie (by rw [hhalf, abs_of_pos one_half_pos])
    have hnonneg : (0 : ℚ) ≤ n := by
      have hmore : (-1 : ℚ) < n := by linarith
      exact_mod_cast hmore
    rw [abs_of_nonneg h, abs_of_nonneg hnonneg] at haway
    linarith
  · rintro ⟨hlow, hhigh⟩
    refine ⟨abs_le.mpr ⟨by linarith, by linarith⟩, ?_⟩
    intro hhalf
    have hbelow : q < n := by
      rcases (abs_eq one_half_pos.le).mp hhalf with h | h <;> linarith
    rw [abs_of_nonneg h]
    exact hbelow.trans_le (le_abs_self _)

/-- A sign does not matter for what is rounded away from zero. -/
theorem roundsAway_iff {negative : Bool} {q : ℚ} {n : ℤ} (h : 0 ≤ q) :
    RoundsAway ((if negative then -1 else 1) * q) n ↔ n = Number.signed negative ⌊q + 1 / 2⌋₊ := by
  cases negative with
  | false => rw [if_neg Bool.false_ne_true, one_mul, roundsAway_of_nonneg h, Number.signed, if_neg Bool.false_ne_true]
  | true =>
    rw [if_pos rfl, neg_one_mul, roundsAway_neg, roundsAway_of_nonneg h, Number.signed, if_pos rfl, neg_eq_iff_eq_neg]

namespace Amount

variable {a : Amount}

theorem capacity_ne_zero : capacity ≠ 0 := by
  decide +kernel

theorem roundHalfUp_eq_floor (num : Nat) {den : Nat} (hden : 0 < den) :
    roundHalfUp num den = ⌊(num / den : ℚ) + 1 / 2⌋₊ := by
  have hne : (den : ℚ) ≠ 0 := Nat.cast_ne_zero.mpr hden.ne'
  have hquotient : (num / den : ℚ) + 1 / 2 = ((2 * num + den : Nat) : ℚ) / (2 * den : Nat) := by
    push_cast
    field_simp
  rw [hquotient, Rat.natFloor_natCast_div_natCast, roundHalfUp]

theorem roundHalfUp_one (n : Nat) : roundHalfUp n 1 = n := by
  unfold roundHalfUp
  omega

theorem roundHalfUp_eq_zero {num den : Nat} (h : 2 * num < den) : roundHalfUp num den = 0 :=
  Nat.div_eq_of_lt (by omega)

theorem roundHalfUp_le (num : Nat) {den : Nat} (hden : 0 < den) : roundHalfUp num den ≤ num := by
  have hpos : 0 < 2 * den := by omega
  have hnum : num ≤ den * num := Nat.le_mul_of_pos_left num hden
  have hexpand : (num + 1) * (2 * den) = 2 * (den * num) + 2 * den := by ring
  apply Nat.lt_add_one_iff.mp
  apply (Nat.div_lt_iff_lt_mul hpos).mpr
  omega

/-- Up to the 28th place nothing is rounded off. -/
theorem roundHalfUp_kept (digits : Nat) {k : Nat} (h : k ≤ 28) :
    roundHalfUp digits (Nat.pow 10 (k - min k 28)) = digits := by
  have hnone : k - min k 28 = 0 := by omega
  rw [hnone, Nat.pow_eq, Nat.pow_zero, roundHalfUp_one]

/-- Beyond the 28th place few digits are far less than half a cent, so rounding there first does not matter. -/
theorem roundHalfUp_twice {digits : Nat} (hsmall : digits ≤ 2 * 10 ^ 19) (k : Nat) :
    roundHalfUp (roundHalfUp digits (Nat.pow 10 (k - min k 28))) (Nat.pow 10 (min k 28 - 2)) =
      roundHalfUp digits (Nat.pow 10 (k - 2)) := by
  by_cases hfew : k ≤ 28
  · rw [roundHalfUp_kept digits hfew, Nat.min_eq_left hfew]
  · have hfirst : 0 < Nat.pow 10 (k - min k 28) := Nat.pow_pos (by decide)
    have hle := roundHalfUp_le digits hfirst
    have hplaces : min k 28 - 2 = 26 := by omega
    have hpow : Nat.pow 10 26 ≤ Nat.pow 10 (k - 2) := Nat.pow_le_pow_right (by decide) (by omega)
    have hhalf : 2 * (2 * 10 ^ 19) < Nat.pow 10 26 := by decide +kernel
    rw [hplaces, roundHalfUp_eq_zero (by omega), roundHalfUp_eq_zero (by omega)]

theorem toCents_of_le (h : a.places ≤ 2) : a.toCents = a :=
  if_pos h

theorem toCents_of_lt (h : 2 < a.places) :
    a.toCents = ⟨a.negative, roundHalfUp a.mantissa (Nat.pow 10 (a.places - 2)), 2⟩ :=
  if_neg (Nat.not_le_of_lt h)

/-- An amount is widened by as many places as there is room for, up to the second. -/
theorem widened_spec (a : Amount) (h : a.places ≤ 2) :
    ∃ k, a.widened = ⟨a.negative, a.mantissa * 10 ^ k, a.places + k⟩ ∧ a.places + k ≤ 2 ∧
      (k ≠ 0 → a.mantissa * 10 ^ k < capacity) ∧ (a.places + k ≠ 2 → capacity ≤ a.mantissa * 10 ^ (k + 1)) := by
  induction a using widened.induct with
  | case1 a hroom ih =>
    obtain ⟨k, heq, hplaces, hheld, hfull⟩ := ih hroom.1
    dsimp only at heq hplaces hheld hfull
    refine ⟨k + 1, ?_, by omega, ?_, ?_⟩
    · rw [widened, if_pos hroom, heq]
      congr 1
      · rw [Nat.mul_assoc, ← Nat.pow_succ']
      · omega
    · intro _
      rw [Nat.pow_succ', ← Nat.mul_assoc]
      by_cases hk : k = 0
      · rw [hk, Nat.pow_zero, Nat.mul_one]
        exact hroom.2
      · exact hheld hk
    · intro hless
      rw [Nat.pow_succ', ← Nat.mul_assoc]
      exact hfull (by omega)
  | case2 a hroom =>
    refine ⟨0, ?_, h, by omega, ?_⟩
    · rw [widened, if_neg hroom, Nat.pow_zero, Nat.mul_one, Nat.add_zero]
    · intro hless
      rw [Nat.zero_add, Nat.pow_one]
      by_contra hheld
      exact hroom ⟨by omega, Nat.lt_of_not_le hheld⟩

theorem widened_eq (h : a.places ≤ 2) (hroom : a.mantissa * 10 ^ (2 - a.places) < capacity) :
    a.widened = ⟨a.negative, a.mantissa * 10 ^ (2 - a.places), 2⟩ := by
  obtain ⟨k, heq, hplaces, -, hfull⟩ := widened_spec a h
  have htwo : a.places + k = 2 := by
    by_contra hless
    have hpow : 10 ^ (k + 1) ≤ 10 ^ (2 - a.places) := Nat.pow_le_pow_right (by decide) (by omega)
    have hle := Nat.mul_le_mul_left a.mantissa hpow
    have := hfull hless
    omega
  have hk : k = 2 - a.places := by omega
  rw [heq, htwo, hk]

theorem widened_places_ne (h : a.places < 2) (hfull : capacity ≤ a.mantissa * 10 ^ (2 - a.places)) :
    a.widened.places ≠ 2 := by
  obtain ⟨k, heq, -, hheld, -⟩ := widened_spec a h.le
  intro htwo
  rw [heq] at htwo
  dsimp only at htwo
  have hk : k = 2 - a.places := by omega
  have hlt := hheld (by omega)
  rw [hk] at hlt
  omega

end Amount

namespace Decimal

variable {d : Decimal}

theorem abs_toRat_of_nonneg (h : 0 ≤ d.exponent) : |d.toRat| = (d.digits * 10 ^ d.exponent.toNat : Nat) := by
  obtain ⟨k, hk⟩ := Int.eq_ofNat_of_zero_le h
  rw [abs_toRat, hk, Int.toNat_natCast, zpow_natCast]
  push_cast
  rfl

/-- How many cents a decimal is worth, without its sign. -/
def cents (d : Decimal) : Nat :=
  ⌊|d.toRat| * 100 + 1 / 2⌋₊

theorem roundsAway_iff_cents {n : ℤ} : RoundsAway (d.toRat * 100) n ↔ n = Number.signed d.negative d.cents := by
  have hnonneg : 0 ≤ |d.toRat| * 100 := mul_nonneg (abs_nonneg _) (by norm_num)
  have hsign : d.toRat * 100 = (if d.negative then -1 else 1) * (|d.toRat| * 100) := by
    rw [abs_toRat, toRat, mul_assoc]
  rw [hsign, roundsAway_iff hnonneg, cents]

/-- Up to two places there is nothing to round. -/
theorem cents_eq_mul {k : Nat} (h : d.exponent + 2 = k) : d.cents = d.digits * 10 ^ k := by
  have hexponent : d.exponent = k - 2 := by omega
  have hwhole : |d.toRat| * 100 = ((d.digits * 10 ^ k : Nat) : ℚ) := by
    rw [abs_toRat, hexponent, zpow_sub₀ (by norm_num), zpow_natCast]
    push_cast
    ring
  rw [cents, hwhole, add_comm, Nat.floor_add_natCast one_half_pos.le, Nat.floor_eq_zero.mpr one_half_lt_one,
    Nat.zero_add]

theorem cents_of_nonneg (h : 0 ≤ d.exponent) : d.cents = d.digits * 10 ^ d.exponent.toNat * 10 ^ 2 := by
  rw [cents_eq_mul (k := d.exponent.toNat + 2) (by omega), Nat.pow_add, Nat.mul_assoc]

/-- Beyond two places a half goes up. -/
theorem cents_eq_roundHalfUp {k : Nat} (h : d.exponent + 2 = -k) :
    d.cents = Amount.roundHalfUp d.digits (Nat.pow 10 k) := by
  have hexponent : d.exponent = -k - 2 := by omega
  have hquotient : |d.toRat| * 100 = d.digits / (Nat.pow 10 k : Nat) := by
    rw [abs_toRat, hexponent, zpow_sub₀ (by norm_num), zpow_neg, zpow_natCast, Nat.pow_eq, Nat.cast_pow]
    push_cast
    field_simp
  have hpos : 0 < Nat.pow 10 k := Nat.pow_pos (by decide)
  rw [cents, hquotient, Amount.roundHalfUp_eq_floor _ hpos]

end Decimal

namespace Amount

variable {d : Decimal} {a : Amount}

/-- An amount without places has all digits of its decimal in front of the point. -/
theorem ofDecimal?_of_nonneg (h : 0 ≤ d.exponent) : ofDecimal? d =
    if d.digits * 10 ^ d.exponent.toNat < capacity then some ⟨d.negative, d.digits * 10 ^ d.exponent.toNat, 0⟩
    else none := by
  have hplaces : (-d.exponent).toNat = 0 := by omega
  rw [ofDecimal?, hplaces, Nat.zero_min, Nat.sub_zero, Nat.pow_eq, Nat.pow_eq, Nat.pow_zero, roundHalfUp_one]

/-- Few digits behind the point are always held. -/
theorem ofDecimal?_of_nonpos (h : d.exponent ≤ 0) (hsmall : d.digits < capacity) {k : Nat}
    (hk : (-d.exponent).toNat = k) :
    ofDecimal? d = some ⟨d.negative, roundHalfUp d.digits (Nat.pow 10 (k - min k 28)), min k 28⟩ := by
  have hwhole : d.exponent.toNat = 0 := by omega
  have hone : Nat.pow 10 0 = 1 := rfl
  have hpos : 0 < Nat.pow 10 (k - min k 28) := Nat.pow_pos (by decide)
  rw [ofDecimal?, hwhole, hone, Nat.mul_one, hk, if_pos ((roundHalfUp_le d.digits hpos).trans_lt hsmall)]

/-- Rounding twice never moves a cent: an amount of few digits shows the cents of its decimal, wherever it has room for
them. -/
theorem cents_held (hsmall : d.digits ≤ 2 * 10 ^ 19) (hroom : d.cents < capacity) :
    (ofDecimal? d).map (fun a => a.toCents.widened) = some ⟨d.negative, d.cents, 2⟩ := by
  rcases Int.lt_or_le d.exponent 0 with hbehind | hwhole
  · obtain ⟨k, hk⟩ : ∃ k, (-d.exponent).toNat = k := ⟨_, rfl⟩
    have hcapacity : 2 * 10 ^ 19 < capacity := by decide +kernel
    rw [ofDecimal?_of_nonpos hbehind.le (by omega) hk, Option.map_some]
    by_cases hfew : k ≤ 2
    · have hplaces : min k 28 = k := by omega
      have hcents : d.cents = d.digits * 10 ^ (2 - k) := Decimal.cents_eq_mul (by omega)
      rw [roundHalfUp_kept d.digits (by omega), hplaces, toCents_of_le hfew, widened_eq hfew (hcents ▸ hroom), hcents]
    · have hcents : d.cents = roundHalfUp d.digits (Nat.pow 10 (k - 2)) := Decimal.cents_eq_roundHalfUp (by omega)
      have hmany : 2 < min k 28 := by omega
      rw [toCents_of_lt hmany]
      dsimp only
      rw [roundHalfUp_twice hsmall, ← hcents, widened_eq le_rfl, Nat.sub_self, Nat.pow_zero, Nat.mul_one]
      rwa [Nat.sub_self, Nat.pow_zero, Nat.mul_one]
  · have hcents := Decimal.cents_of_nonneg hwhole
    have hheld : d.digits * 10 ^ d.exponent.toNat < capacity := by omega
    rw [ofDecimal?_of_nonneg hwhole, if_pos hheld, Option.map_some, toCents_of_le (Nat.zero_le 2),
      widened_eq (Nat.zero_le 2) (hcents ▸ hroom), hcents]
    rfl

/-- Only whole numbers are too large for their cents. -/
theorem nonneg_of_full (hsmall : d.digits ≤ 2 * 10 ^ 19) (hfull : capacity ≤ d.cents) : 0 ≤ d.exponent := by
  by_contra hbehind
  have hcapacity : 2 * 10 ^ 19 * 100 + 1 < capacity := by decide +kernel
  have hpow : (10 : ℚ) ^ d.exponent ≤ 1 := zpow_le_one_of_nonpos₀ (by norm_num) (by omega)
  have hle : |d.toRat| ≤ d.digits := by
    rw [Decimal.abs_toRat]
    exact mul_le_of_le_one_right (Nat.cast_nonneg _) hpow
  have hcents : d.cents < d.digits * 100 + 1 := by
    apply (Nat.floor_lt' (Nat.succ_ne_zero _)).mpr
    push_cast
    linarith
  omega

end Amount

end TextTemplate
