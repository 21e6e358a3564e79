import TextTemplate.Proofs.Number.Nearest

namespace TextTemplate

/-- Zeros at the end are a matter of the place. -/
theorem Decimal.toRat_shift (negative : Bool) (digits : Nat) (exponent : Int) (k : Nat) :
    (⟨negative, digits, exponent + k⟩ : Decimal).toRat = (⟨negative, digits * 10 ^ k, exponent⟩ : Decimal).toRat := by
  have hpow : (10 : ℚ) ^ (exponent + k) = 10 ^ k * 10 ^ exponent := by
    rw [zpow_add₀ (by norm_num), zpow_natCast, mul_comm]
  rw [toRat, toRat, hpow, Nat.cast_mul, Nat.cast_pow, Nat.cast_ofNat, mul_assoc (digits : ℚ)]

namespace Number

/-- The binary place of the last digit of the numbers just below `2 ^ 46`. -/
@[irreducible] def grainPlace : Nat := 1067

/-- The distance of the numbers just below `2 ^ 46`, in units. It is less than a cent. -/
def grain : ℚ := 2 ^ grainPlace

/-- `2 ^ 46` in units. -/
def border : Nat := Nat.pow 2 53 * Nat.pow 2 grainPlace

section Grain

variable {m n : Nat}

theorem unitsPerOne_eq : unitsPerOne = Nat.pow 2 (7 + grainPlace) := by
  have hplace : 1074 = 7 + grainPlace := by
    unfold grainPlace
    rfl
  delta unitsPerOne
  rw [hplace]

theorem grain_pos : 0 < grain :=
  pow_pos two_pos grainPlace

theorem unitsPerOne_eq_grain : (unitsPerOne : ℚ) = 128 * grain := by
  have hpow : (2 : ℚ) ^ 7 = 128 := by norm_num
  rw [unitsPerOne_eq, cast_two_pow, pow_add, hpow, grain]

theorem border_eq_grain : (border : ℚ) = 2 ^ 53 * grain := by
  rw [border, cast_mul_two_pow, cast_two_pow, grain]

theorem fits_border : Fits border :=
  fits_of_le le_rfl grainPlace

theorem nearestTo_border : nearestTo border = border :=
  nearestTo_natCast fits_border

theorem inUnits_cents (n : Nat) : inUnits n (-2) = n * (32 / 25 * grain) := by
  have hcent : (10 : ℚ) ^ (-2 : Int) = 1 / 100 := by norm_num
  rw [inUnits, unitsPerOne_eq_grain, hcent]
  ring

theorem inUnits_cents_le_border (h : n ≤ 2 ^ 46 * 100) : inUnits n (-2) ≤ 2 ^ 53 * grain := by
  have hcast : (n : ℚ) ≤ 2 ^ 46 * 100 := by exact_mod_cast h
  have hgrain := grain_pos
  calc
    inUnits n (-2) = n * (32 / 25 * grain) := inUnits_cents n
    _ ≤ 2 ^ 46 * 100 * (32 / 25 * grain) := by gcongr
    _ = 2 ^ 53 * grain := by ring

theorem border_lt_inUnits_cents (h : 2 ^ 46 * 100 < n) : 2 ^ 53 * grain + 32 / 25 * grain ≤ inUnits n (-2) := by
  have hcast : (2 : ℚ) ^ 46 * 100 + 1 ≤ n := by exact_mod_cast h
  have hgrain := grain_pos
  calc
    2 ^ 53 * grain + 32 / 25 * grain = (2 ^ 46 * 100 + 1) * (32 / 25 * grain) := by ring
    _ ≤ n * (32 / 25 * grain) := by gcongr
    _ = inUnits n (-2) := (inUnits_cents n).symm

/-- From `2 ^ 46` on numbers lie twice as far apart, so what lies more than the distance of those before it above
`2 ^ 46` is read as something larger. -/
theorem border_lt_nearestTo {x : ℚ} (h : 2 ^ 53 * grain + grain < x) : border < nearestTo x := by
  have hgrain := grain_pos
  have hx : 0 ≤ x := by linarith
  have hge : border ≤ nearestTo x := by
    rw [← nearestTo_border]
    apply nearestTo_mono (Nat.cast_nonneg _)
    rw [border_eq_grain]
    linarith
  apply lt_of_le_of_ne hge
  intro hread
  have hnext : Fits ((Nat.pow 2 52 + 1) * Nat.pow 2 (grainPlace + 1)) := fits_of_le (by decide) _
  have hvalue : (((Nat.pow 2 52 + 1) * Nat.pow 2 (grainPlace + 1) : Nat) : ℚ) = 2 ^ 53 * grain + 2 * grain := by
    rw [cast_mul_two_pow, Nat.cast_add, cast_two_pow, Nat.cast_one, pow_succ 2 grainPlace, grain]
    ring
  have hnearest := (isNearest_nearestTo hx).nearest _ hnext
  rw [← hread, border_eq_grain, hvalue] at hnearest
  have habove : x - 2 ^ 53 * grain ≤ |x - (2 ^ 53 * grain + 2 * grain)| := (le_abs_self _).trans hnearest
  rcases (abs_choice (x - (2 ^ 53 * grain + 2 * grain))) with hsign | hsign
  · linarith
  · linarith

/-- Up to `2 ^ 46` a number is read from no more than one amount of cents. -/
theorem cents_unique (hn : n ≤ 2 ^ 46 * 100) (h : nearestTo (inUnits m (-2)) = nearestTo (inUnits n (-2))) : m = n := by
  have hgrain := grain_pos
  have hbelow := inUnits_cents_le_border hn
  rcases Nat.lt_or_ge (2 ^ 46 * 100) m with habove | hm
  · have hlarge := border_lt_inUnits_cents habove
    have hmore : border < nearestTo (inUnits m (-2)) := border_lt_nearestTo (by linarith)
    have hle : nearestTo (inUnits n (-2)) ≤ border := by
      rw [← nearestTo_border]
      exact nearestTo_mono (inUnits_nonneg _ _) (by rwa [border_eq_grain])
    omega
  · -- Both lie within half the distance of two numbers from the number that they are read as.
    have hnear : |inUnits n (-2) - nearestTo (inUnits n (-2))| ≤ grain / 2 :=
      abs_sub_nearestTo_le (inUnits_nonneg _ _) hbelow
    have hnear' : |inUnits m (-2) - nearestTo (inUnits m (-2))| ≤ grain / 2 :=
      abs_sub_nearestTo_le (inUnits_nonneg _ _) (inUnits_cents_le_border hm)
    rw [h] at hnear'
    have hdistance : |inUnits m (-2) - inUnits n (-2)| ≤ grain := by
      have htriangle := abs_sub_le (inUnits m (-2)) (nearestTo (inUnits n (-2))) (inUnits n (-2))
      rw [abs_sub_comm (nearestTo (inUnits n (-2)) : ℚ)] at htriangle
      linarith
    have hpos : (0 : ℚ) < 32 / 25 * grain := by linarith
    rw [inUnits_cents, inUnits_cents, ← sub_mul, abs_mul, abs_of_pos hpos] at hdistance
    have hless : |(m : ℚ) - n| < 1 := by
      apply lt_of_mul_lt_mul_right _ hpos.le
      linarith
    have hzero : (m : ℤ) - n = 0 := Int.abs_lt_one_iff.mp (by exact_mod_cast hless)
    omega

theorem eq_of_dvd_of_close {step : Nat} (hm : step ∣ m) (hn : step ∣ n) (hclose : |(m : ℚ) - n| < step) : m = n := by
  have hclose : |(m : ℤ) - n| < step := by exact_mod_cast hclose
  have hdvd : (step : ℤ) ∣ m - n := dvd_sub (Int.natCast_dvd_natCast.mpr hm) (Int.natCast_dvd_natCast.mpr hn)
  have hzero : (m : ℤ) - n = 0 := Int.eq_zero_of_abs_lt_dvd hdvd hclose
  omega

/-- From `2 ^ 46` on an amount of cents lies within half a cent, and it does not lie below `2 ^ 46`, which is itself an
amount of cents. -/
theorem exists_near_cents {x : ℚ} (h : 2 ^ 53 * grain ≤ x) :
    ∃ n : Nat, |inUnits n (-2) - x| ≤ 16 / 25 * grain ∧ 2 ^ 53 * grain ≤ inUnits n (-2) := by
  have hgrain := grain_pos
  have hcent : (0 : ℚ) < 32 / 25 * grain := by linarith
  have hx : 0 ≤ x := by linarith
  obtain ⟨n, hnear, -⟩ := exists_nat_near (div_nonneg hx hcent.le)
  have hclose : |inUnits n (-2) - x| ≤ 16 / 25 * grain := by
    have hscaled : inUnits n (-2) - x = -((x / (32 / 25 * grain) - n) * (32 / 25 * grain)) := by
      rw [inUnits_cents, sub_mul, div_mul_cancel₀ _ hcent.ne']
      ring
    rw [hscaled, abs_neg, abs_mul, abs_of_pos hcent]
    calc
      |x / (32 / 25 * grain) - n| * (32 / 25 * grain) ≤ 1 / 2 * (32 / 25 * grain) := by gcongr
      _ = 16 / 25 * grain := by ring
  refine ⟨n, hclose, ?_⟩
  rcases Nat.lt_or_ge n (2 ^ 46 * 100) with hless | hge
  · have hnext := inUnits_cents_le_border (Nat.succ_le_of_lt hless)
    rw [Nat.succ_eq_add_one, inUnits_add, inUnits_cents 1, Nat.cast_one, one_mul] at hnext
    have hlow := (abs_le.mp hclose).1
    linarith
  · have hcast : (2 : ℚ) ^ 46 * 100 ≤ n := by exact_mod_cast hge
    calc
      2 ^ 53 * grain = 2 ^ 46 * 100 * (32 / 25 * grain) := by ring
      _ ≤ n * (32 / 25 * grain) := by gcongr
      _ = inUnits n (-2) := (inUnits_cents n).symm

/-- From `2 ^ 46` on every number is read from some amount of cents. -/
theorem exists_cents (hfits : Fits m) (hm : border ≤ m) : ∃ n : Nat, nearestTo (inUnits n (-2)) = m := by
  have hgrain := grain_pos
  have hlarge : 2 ^ 53 * grain ≤ m := by
    rw [← border_eq_grain]
    exact_mod_cast hm
  obtain ⟨n, hclose, hborder⟩ := exists_near_cents hlarge
  have hstep : (2 : ℚ) ^ (grainPlace + 1) = 2 * grain := by rw [pow_succ', grain]
  have hborderPow : Nat.pow 2 (52 + (grainPlace + 1)) = border := by
    rw [border, ← pow_two_add]
    congr 1
    omega
  have hdvd : Nat.pow 2 (grainPlace + 1) ∣ nearestTo (inUnits n (-2)) := by
    apply dvd_nearestTo
    rw [hstep]
    linarith
  have hdvd' : Nat.pow 2 (grainPlace + 1) ∣ m := hfits.dvd (by rwa [hborderPow])
  refine ⟨n, eq_of_dvd_of_close hdvd hdvd' ?_⟩
  -- The number that the amount is read as lies as near to it as `m`, so the two are no full step apart.
  have hread := (isNearest_nearestTo (inUnits_nonneg n (-2))).nearest m hfits
  have htriangle := abs_sub_le (nearestTo (inUnits n (-2)) : ℚ) (inUnits n (-2)) m
  rw [abs_sub_comm (nearestTo (inUnits n (-2)) : ℚ) (inUnits n (-2))] at htriangle
  rw [cast_two_pow, hstep]
  linarith

end Grain

/-- A number whose decimal has more than two places lies below `2 ^ 46`. -/
theorem Found.lt_border {magnitude digits : Nat} {exponent : Int} (h : Found magnitude digits exponent)
    (hfits : Fits magnitude) (hplaces : exponent < -2) : inUnits digits exponent < border := by
  have hsmall : magnitude < border := by
    by_contra hlarge
    obtain ⟨n, hn⟩ := exists_cents hfits (Nat.le_of_not_lt hlarge)
    exact h.coarsest n (-2) hplaces hn
  by_contra hlarge
  have hle := nearestTo_mono (Nat.cast_nonneg border) (le_of_not_gt hlarge)
  rw [nearestTo_border, h.reads] at hle
  omega

theorem limit_eq : limit = Nat.pow 2 (1031 + grainPlace) := by
  have hplace : 2098 = 1031 + grainPlace := by
    unfold grainPlace
    rfl
  delta limit
  rw [hplace]

theorem border_lt_limit : border < limit := by
  rw [border, ← pow_two_add, limit_eq]
  exact Nat.pow_lt_pow_right (by decide) (by omega)

/-- An amount of cents up to `2 ^ 46` is read as a number that is printed as this amount again. -/
theorem exists_ofDecimal_cents (negative : Bool) {cents : Nat} (h : cents ≤ 2 ^ 46 * 100) :
    ∃ units storable, ofDecimal ⟨negative, cents, -2⟩ = .finite units storable ∧
      (decimalOf units).toRat = (⟨negative, cents, -2⟩ : Decimal).toRat := by
  by_cases hzero : cents = 0
  · refine ⟨0, _, if_pos hzero, ?_⟩
    rw [hzero, decimalOf_zero, Decimal.toRat, Decimal.toRat, Nat.cast_zero, zero_mul, mul_zero, zero_mul, mul_zero]
  generalize hmagnitude : nearestTo (inUnits cents (-2)) = magnitude
  have hpos : magnitude ≠ 0 := by
    intro hnone
    apply hzero
    apply cents_unique (Nat.zero_le _)
    rw [hmagnitude, hnone, inUnits_zero, nearestTo_zero]
  have hle : magnitude ≤ border := by
    rw [← hmagnitude, ← nearestTo_border]
    apply nearestTo_mono (inUnits_nonneg _ _)
    rw [border_eq_grain]
    exact inUnits_cents_le_border h
  have hfits : Fits magnitude := by
    rw [← hmagnitude]
    exact (isNearest_nearestTo (inUnits_nonneg _ _)).fits
  have hstorable : Storable (signed negative magnitude).natAbs := by
    rw [natAbs_signed]
    exact ⟨hfits, hle.trans_lt border_lt_limit⟩
  have hunits : signed negative magnitude ≠ 0 := by
    rwa [← Int.natAbs_ne_zero, natAbs_signed]
  have hsign : decide (signed negative magnitude < 0) = negative := by
    rw [decide_signed_neg, bne_iff_ne.mpr hpos, Bool.and_true]
  refine ⟨signed negative magnitude, hstorable, ?_, ?_⟩
  · rw [ofDecimal_eq_finite_iff hunits, natAbs_signed, hsign]
    exact ⟨hmagnitude, rfl⟩
  · obtain ⟨digits, exponent, hfound, heq⟩ := exists_found hstorable hunits
    rw [natAbs_signed] at hfound
    have hplace : -2 ≤ exponent := by
      by_contra hfiner
      exact hfound.coarsest cents (-2) (by omega) hmagnitude
    obtain ⟨k, rfl⟩ := Int.le.dest hplace
    have hcents : digits * 10 ^ k = cents := by
      apply cents_unique h
      rw [← inUnits_shift, hfound.reads, hmagnitude]
    rw [heq, hsign, Decimal.toRat_shift, hcents]

end Number

end TextTemplate
