import TextTemplate.Filter.Builtin
import TextTemplate.Proofs.Decimal
import TextTemplate.Proofs.Money.Cents

namespace TextTemplate

namespace Number

variable {units : Int}

theorem moneyText_of_some {a : Amount} (h : Amount.ofDecimal? (decimalOf units) = some a) :
    (moneyText units).toList = a.toCents.widened.text := by
  rw [moneyText, h, String.toList_ofList]

theorem moneyText_of_none (h : Amount.ofDecimal? (decimalOf units) = none) :
    (moneyText units).toList = exactCents units := by
  rw [moneyText, h, String.toList_ofList]

/-- Where there is room for them, the cents of the shortest decimal are written. -/
theorem moneyText_of_room (storable : Storable units.natAbs) (hroom : (decimalOf units).cents < Amount.capacity) :
    (moneyText units).toList = Decimal.signText ((decimalOf units).negative && (decimalOf units).cents != 0) ++
      Decimal.fixedText (decimalOf units).cents 2 := by
  have hheld := Amount.cents_held (decimalOf_digits_le storable) hroom
  obtain ⟨a, hread, hcents⟩ := Option.map_eq_some_iff.mp hheld
  rw [moneyText_of_some hread, hcents, Amount.text]

/-- An amount holds the number, but has no room for its cents. -/
def LacksRoom (units : Int) : Prop :=
  (Amount.capacity : ℚ) ≤ |(decimalOf units).toRat| * 100 ∧ |(decimalOf units).toRat| < Amount.capacity

theorem twoDecimals_moneyText_iff (storable : Storable units.natAbs) :
    Decimal.TwoDecimals (moneyText units).toList ↔ ¬ LacksRoom units := by
  have hsmall := decimalOf_digits_le storable
  rcases Nat.lt_or_ge (decimalOf units).cents Amount.capacity with hroom | hfull
  · have hless : ¬ LacksRoom units := by
      rintro ⟨hfull, -⟩
      have hfloor := (Nat.floor_lt' Amount.capacity_ne_zero).mp hroom
      linarith
    rw [moneyText_of_room storable hroom, Decimal.twoDecimals_iff]
    exact iff_of_true rfl hless
  · have hwhole := Amount.nonneg_of_full hsmall hfull
    have hread := Amount.ofDecimal?_of_nonneg hwhole
    rw [LacksRoom, Decimal.abs_toRat_of_nonneg hwhole]
    rw [Decimal.cents_of_nonneg hwhole] at hfull
    generalize (decimalOf units).digits * 10 ^ (decimalOf units).exponent.toNat = whole at *
    have hlarge : (Amount.capacity : ℚ) ≤ whole * 100 := by exact_mod_cast hfull
    split at hread
    case isTrue hheld =>
      rw [moneyText_of_some hread, Amount.toCents_of_le (Nat.zero_le 2), Amount.text, Decimal.twoDecimals_iff]
      exact iff_of_false (Amount.widened_places_ne Nat.two_pos hfull) (not_not.mpr ⟨hlarge, Nat.cast_lt.mpr hheld⟩)
    case isFalse hheld =>
      rw [moneyText_of_none hread, exactCents, Decimal.twoDecimals_iff]
      exact iff_of_true rfl fun h => hheld (Nat.cast_lt.mp h.2)

end Number

namespace Filter

open Number Decimal

/-- Money writes the shortest decimal of a number, rounded once to cents. -/
theorem money_rounds {v : Value} {units : Int} {storable : Storable units.natAbs}
    (hv : v.asNumber? = some (.finite units storable)) :
    (decimalOf units).IsShortest units storable ∧
    ∃ cents : ℤ, (∀ n, RoundsAway ((decimalOf units).toRat * 100) n ↔ n = cents) ∧
      (cents.natAbs < Amount.capacity →
        ∃ text, money v [] = .ok (.string text) ∧ WritesHundredths text.toList cents) := by
  refine ⟨decimalOf_isShortest units storable, signed (decimalOf units).negative (decimalOf units).cents,
    fun n => roundsAway_iff_cents, ?_⟩
  intro hroom
  rw [natAbs_signed] at hroom
  refine ⟨moneyText units, ?_, ?_⟩
  · rw [money, plain, amountText, hv]
  · have hwrites := writesHundredths_fixedText (signed (decimalOf units).negative (decimalOf units).cents)
    rwa [decide_signed_neg, natAbs_signed, ← moneyText_of_room storable hroom] at hwrites

/-- `1.005` is half way between two cents and is rounded the way it reads, though its binary value lies below. -/
theorem money_rounds_half :
    ∃ text, money (.number (ofDecimal ⟨false, 1005, -3⟩)) [] = .ok (.string text) ∧
      WritesHundredths text.toList 101 := by
  obtain ⟨units, storable, hread, hprinted⟩ := decimalOf_ofDecimal (d := ⟨false, 1005, -3⟩) (by decide) rfl
    (by decide +kernel) (by decide +kernel) (by decide +kernel)
  obtain ⟨-, cents, hcents, hwritten⟩ := money_rounds (v := .number (.finite units storable)) rfl
  have haway : RoundsAway ((decimalOf units).toRat * 100) 101 := by
    have hvalue : (decimalOf units).toRat * 100 = 201 / 2 := by
      rw [hprinted, toRat]
      norm_num
    rw [hvalue]
    constructor <;> norm_num [abs_of_neg, abs_of_pos]
  have hcents : 101 = cents := (hcents 101).mp haway
  rw [hread]
  rw [← hcents] at hwritten
  exact hwritten (by decide +kernel)

/-- Money has two decimals, save for a number that an amount holds without room for its cents. -/
theorem money_two_decimals_iff (v : Value) :
    ∃ text, money v [] = .ok (.string text) ∧
      (TwoDecimals text.toList ↔
        ∀ units storable, v.asNumber? = some (.finite units storable) → ¬ LacksRoom units) := by
  refine ⟨amountText v, rfl, ?_⟩
  by_cases hfinite : ∃ units storable, v.asNumber? = some (.finite units storable)
  · obtain ⟨units, storable, hv⟩ := hfinite
    have htext : amountText v = moneyText units := by rw [amountText, hv]
    rw [htext, twoDecimals_moneyText_iff storable]
    constructor
    · intro hroom units' storable' hv'
      cases hv.symm.trans hv'
      exact hroom
    · intro hroom
      exact hroom units storable hv
  · have htext : amountText v = "0.00" := by
      unfold amountText
      split
      case h_1 units storable hv => exact absurd ⟨units, storable, hv⟩ hfinite
      case h_2 => rfl
    have hzero : "0.00".toList = signText false ++ fixedText 0 2 := by decide +kernel
    rw [htext, hzero, twoDecimals_iff]
    refine iff_of_true rfl ?_
    intro units storable hv
    exact absurd ⟨units, storable, hv⟩ hfinite

/-- `1e27` is held without room for its cents. -/
theorem money_of_octillion :
    money (.number (ofDecimal ⟨false, 1, 27⟩)) [] = .ok (.string "1000000000000000000000000000.0") ∧
      ¬ TwoDecimals "1000000000000000000000000000.0".toList := by
  obtain ⟨units, storable, hread, hprinted⟩ := decimalOf_ofDecimal (d := ⟨false, 1, 27⟩) (by decide) rfl
    (by decide +kernel) (by decide +kernel) (by decide +kernel)
  have hheld : Amount.ofDecimal? (decimalOf units) = some ⟨false, 10 ^ 27, 0⟩ := by
    rw [hprinted]
    decide +kernel
  have hwidened : (Amount.mk false (10 ^ 27) 0).widened = ⟨false, 10 ^ 28, 1⟩ := by
    rw [Amount.widened, if_pos (by decide +kernel), Amount.widened, if_neg (by decide +kernel)]
    rfl
  have htext : signText false ++ fixedText (10 ^ 28) 1 = "1000000000000000000000000000.0".toList := by
    decide +kernel
  have hmoney : moneyText units = "1000000000000000000000000000.0" := by
    apply String.toList_inj.mp
    rw [moneyText_of_some hheld, Amount.toCents_of_le (Nat.zero_le 2), hwidened, Amount.text, ← htext]
    rfl
  constructor
  · rw [hread, ← hmoney]
    rfl
  · rw [← htext, twoDecimals_iff]
    decide

end Filter

end TextTemplate
