import TextTemplate.Proofs.Money.Text
import TextTemplate.Proofs.Number.Hundredths
import TextTemplate.Proofs.Value.Numeric

namespace TextTemplate

namespace Decimal

variable {d d' : Decimal}

/-- A zero without its sign is still zero. -/
theorem toRat_and_ne_zero (negative : Bool) (digits : Nat) (exponent : Int) :
    (⟨negative && digits != 0, digits, exponent⟩ : Decimal).toRat = (⟨negative, digits, exponent⟩ : Decimal).toRat := by
  rcases Nat.eq_zero_or_pos digits with rfl | hpos
  · rw [toRat, toRat, Nat.cast_zero, zero_mul, mul_zero, mul_zero]
  · rw [bne_iff_ne.mpr hpos.ne', Bool.and_true]

theorem signed_cents_congr (h : d.toRat = d'.toRat) :
    Number.signed d.negative d.cents = Number.signed d'.negative d'.cents := by
  have haway : RoundsAway (d.toRat * 100) (Number.signed d.negative d.cents) := roundsAway_iff_cents.mpr rfl
  rw [h] at haway
  exact roundsAway_iff_cents.mp haway

/-- What is written with so many places is the text of a decimal. -/
theorem signText_append_fixedText (negative : Bool) (n places : Nat) :
    signText negative ++ fixedText n places = (⟨negative, n, -places⟩ : Decimal).text := by
  rw [text]
  dsimp only
  rw [neg_neg, Int.toNat_natCast]
  rcases Nat.eq_zero_or_pos places with rfl | hpos
  · have hone : Nat.pow 10 (-((0 : Nat) : Int)).toNat = 1 := rfl
    rw [if_pos (by omega), fixedText, if_pos rfl, hone, Nat.mul_one]
  · rw [if_neg (by omega)]

end Decimal

namespace Number

open Decimal (signText fixedText)

variable {units : Int} {d : Decimal}

/-- A number that has a decimal of more than two places lies below `2 ^ 46`. -/
theorem cents_le_of_lt (storable : Storable units.natAbs) (h : (decimalOf units).exponent < -2) :
    (decimalOf units).cents ≤ 2 ^ 46 * 100 := by
  have hunits : units ≠ 0 := by
    rintro rfl
    rw [decimalOf_zero] at h
    exact absurd h (by decide)
  obtain ⟨digits, exponent, hfound, heq⟩ := exists_found storable hunits
  rw [heq] at h ⊢
  have hbelow := hfound.lt_border storable.1 h
  have hgrain := grain_pos
  have hvalue : |(⟨decide (units < 0), digits, exponent⟩ : Decimal).toRat| < 2 ^ 46 := by
    rw [Decimal.abs_toRat]
    rw [inUnits, unitsPerOne_eq_grain, border_eq_grain] at hbelow
    apply lt_of_mul_lt_mul_right _ (by linarith : (0 : ℚ) ≤ 128 * grain)
    linarith
  apply Nat.lt_add_one_iff.mp
  apply (Nat.floor_lt' (Nat.succ_ne_zero _)).mpr
  push_cast
  linarith

/-- Numbers whose decimals are worth the same have the same cents written. -/
theorem moneyText_of_toRat (storable : Storable units.natAbs) (hvalue : (decimalOf units).toRat = d.toRat)
    (hroom : d.cents < Amount.capacity) :
    (moneyText units).toList = signText (d.negative && d.cents != 0) ++ fixedText d.cents 2 := by
  have hsigned := Decimal.signed_cents_congr hvalue
  have hcents : (decimalOf units).cents = d.cents := by
    rw [← natAbs_signed (decimalOf units).negative (decimalOf units).cents, hsigned, natAbs_signed]
  rw [moneyText_of_room storable (hcents ▸ hroom), ← decide_signed_neg, hsigned, decide_signed_neg, hcents]

/-- The number whose decimal has no more than two places is what its amount is worth. -/
theorem toRat_cents_of_le {k : Nat} (h : d.exponent + 2 = k) :
    (⟨d.negative && d.cents != 0, d.cents, -2⟩ : Decimal).toRat = d.toRat := by
  obtain ⟨negative, digits, exponent⟩ := d
  obtain rfl : exponent = -2 + k := by
    dsimp only at h
    omega
  rw [Decimal.toRat_and_ne_zero, Decimal.cents_eq_mul h, Decimal.toRat_shift]

/-- An amount with fewer than two decimals is worth the number that it holds. -/
theorem toRat_widened (h : 0 ≤ d.exponent) (k : Nat) :
    let mantissa := d.digits * 10 ^ d.exponent.toNat * 10 ^ k
    (⟨d.negative && mantissa != 0, mantissa, -k⟩ : Decimal).toRat = d.toRat := by
  obtain ⟨negative, digits, exponent⟩ := d
  obtain ⟨e, rfl⟩ := Int.eq_ofNat_of_zero_le h
  have hplace : (e : Int) = -k + ((e + k : Nat) : Int) := by omega
  dsimp only
  rw [Decimal.toRat_and_ne_zero, Int.toNat_natCast, mul_assoc, ← pow_add, ← Decimal.toRat_shift, ← hplace]

/-- Where no amount holds a number, it is a whole number, and so are its cents. -/
theorem exactCents_of_full (storable : Storable units.natAbs) (hwhole : 0 ≤ (decimalOf units).exponent)
    (hfull : Amount.capacity ≤ (decimalOf units).digits * 10 ^ (decimalOf units).exponent.toNat) :
    ∃ d : Decimal, exactCents units = d.text ∧ ofDecimal d = .finite units storable := by
  have hunits : units ≠ 0 := by
    rintro rfl
    rw [decimalOf_zero] at hfull
    exact absurd hfull (by decide)
  obtain ⟨digits, exponent, hfound, heq⟩ := exists_found storable hunits
  rw [heq] at hwhole hfull
  obtain ⟨e, rfl⟩ := Int.eq_ofNat_of_zero_le hwhole
  have hlarge : (2 : ℚ) ^ 52 * 2 ^ (7 + grainPlace) ≤ inUnits digits e := by
    have hcapacity : Nat.pow 2 52 ≤ digits * 10 ^ e := le_trans (by decide) hfull
    have hcast : (2 : ℚ) ^ 52 ≤ digits * 10 ^ e := by exact_mod_cast hcapacity
    rw [inUnits, zpow_natCast, unitsPerOne_eq, cast_two_pow]
    gcongr
  have hdvd : unitsPerOne ∣ units.natAbs := by
    rw [unitsPerOne_eq, ← hfound.reads]
    exact dvd_nearestTo hlarge
  obtain ⟨whole, hunitsAbs⟩ := hdvd
  have hcents : roundHalfEven (units.natAbs * 100) unitsPerOne = whole * 100 := by
    have hproduct : units.natAbs * 100 = whole * 100 * unitsPerOne := by
      rw [hunitsAbs]
      ring
    have hpos := unitsPerOne_pos
    exact roundHalfEven_eq hpos (by omega) (by omega)
  refine ⟨⟨decide (units < 0), whole * 100, -2⟩, ?_, ?_⟩
  · rw [exactCents, hcents]
    exact Decimal.signText_append_fixedText _ _ 2
  · have hunitsCast : inUnits (whole * 100) (-2) = units.natAbs := by
      rw [inUnits, hunitsAbs]
      push_cast
      ring
    apply ofDecimal_of_toRat storable
    have hdistance := @abs_toRat_sub ⟨decide (units < 0), whole * 100, -2⟩ units rfl
    rw [hunitsCast, sub_self, abs_zero] at hdistance
    exact sub_eq_zero.mp (abs_eq_zero.mp hdistance)

/-- Where there is room for the cents of a number, they are read as this number, or as one that has the same cents. -/
theorem reread_of_room (storable : Storable units.natAbs) (hroom : (decimalOf units).cents < Amount.capacity) :
    let cents := (decimalOf units).cents
    ∃ (units' : Int) (storable' : Storable units'.natAbs),
      ofDecimal ⟨(decimalOf units).negative && cents != 0, cents, -2⟩ = .finite units' storable' ∧
        moneyText units' = moneyText units := by
  intro cents
  rcases Int.lt_or_le (decimalOf units).exponent (-2) with hmany | hfew
  · obtain ⟨units', storable', hread, hvalue⟩ := exists_ofDecimal_cents
      ((decimalOf units).negative && cents != 0) (cents_le_of_lt storable hmany)
    have hcents : (⟨(decimalOf units).negative && cents != 0, cents, -2⟩ : Decimal).cents = cents := by
      rw [Decimal.cents_eq_mul (k := 0) rfl, pow_zero, mul_one]
    have htext := moneyText_of_toRat storable' hvalue (by rwa [hcents])
    rw [hcents, Bool.and_assoc, Bool.and_self, ← moneyText_of_room storable hroom] at htext
    exact ⟨units', storable', hread, String.toList_inj.mp htext⟩
  · obtain ⟨k, hk⟩ := Int.le.dest hfew
    have hvalue := ofDecimal_congr (toRat_cents_of_le (d := decimalOf units) (k := k) (by omega))
    exact ⟨units, storable, hvalue.trans (decimalOf_isShortest units storable).reads, rfl⟩

/-- What money writes for a number is a decimal, and the number that is read from it has the same money. -/
theorem exists_moneyText_eq (storable : Storable units.natAbs) :
    ∃ (d : Decimal) (units' : Int) (storable' : Storable units'.natAbs), (moneyText units).toList = d.text ∧
      ofDecimal d = .finite units' storable' ∧ moneyText units' = moneyText units := by
  rcases Nat.lt_or_ge (decimalOf units).cents Amount.capacity with hroom | hfull
  · obtain ⟨units', storable', hread, hagain⟩ := reread_of_room storable hroom
    have htext := moneyText_of_room storable hroom
    rw [Decimal.signText_append_fixedText] at htext
    exact ⟨_, units', storable', htext, hread, hagain⟩
  · have hwhole := Amount.nonneg_of_full (decimalOf_digits_le storable) hfull
    have hheld := Amount.ofDecimal?_of_nonneg hwhole
    split at hheld
    case isTrue =>
      obtain ⟨k, hwidened, -⟩ := Amount.widened_spec
        ⟨(decimalOf units).negative, (decimalOf units).digits * 10 ^ (decimalOf units).exponent.toNat, 0⟩
        (Nat.zero_le 2)
      have htext := moneyText_of_some hheld
      rw [Amount.toCents_of_le (Nat.zero_le 2), hwidened, Amount.text, Nat.zero_add,
        Decimal.signText_append_fixedText] at htext
      have hvalue := ofDecimal_congr (toRat_widened hwhole k)
      exact ⟨_, units, storable, htext, hvalue.trans (decimalOf_isShortest units storable).reads, rfl⟩
    case isFalse hless =>
      obtain ⟨d, htext, hread⟩ := exactCents_of_full storable hwhole (Nat.le_of_not_lt hless)
      exact ⟨d, units, storable, (moneyText_of_none hheld).trans htext, hread, rfl⟩

end Number

namespace Filter

open Number

/-- What is no finite number is worth as much as zero. -/
theorem exists_amountText (v : Value) : ∃ units : Int, Storable units.natAbs ∧ amountText v = moneyText units := by
  unfold amountText
  split
  case h_1 units storable _ => exact ⟨units, storable, rfl⟩
  case h_2 =>
    have hstorable : Storable (0 : Int).natAbs := ⟨by simp, by delta limit; apply pow_two_pos⟩
    have hcents : (⟨false, 0, 0⟩ : Decimal).cents = 0 := Decimal.cents_eq_mul (k := 2) rfl
    have hroom : (⟨false, 0, 0⟩ : Decimal).cents < Amount.capacity := by
      rw [hcents]
      decide
    refine ⟨0, hstorable, ?_⟩
    apply String.toList_inj.mp
    rw [moneyText_of_toRat hstorable (by rw [decimalOf_zero]) hroom, hcents]
    decide

/-- Money is not moved by writing it as money again. -/
theorem money_money (v : Value) :
    ∃ text, money v [] = .ok (.string text) ∧ money (.string text) [] = .ok (.string text) := by
  obtain ⟨units, storable, hamount⟩ := exists_amountText v
  obtain ⟨d, units', storable', htext, hread, hagain⟩ := exists_moneyText_eq storable
  have hstring : moneyText units = String.ofList ([] ++ d.text ++ []) := by
    rw [List.nil_append, List.append_nil, ← htext, String.ofList_toList]
  have hfinite : (ofDecimal d).isFinite = true := by
    rw [hread]
    rfl
  have hnumber : (Value.string (moneyText units)).asNumber? = some (.finite units' storable') := by
    rw [← hread, hstring]
    exact Value.readNumber?_decimal hfinite [] [] nofun nofun
  refine ⟨moneyText units, ?_, ?_⟩
  · rw [money, plain, hamount]
  · rw [money, plain, amountText, hnumber]
    dsimp only
    rw [hagain]

end Filter

end TextTemplate
