import TextTemplate.Proofs.Number.Shortest

namespace TextTemplate

/-- The value of a decimal. -/
def Decimal.toRat (d : Decimal) : ℚ :=
  (if d.negative then -1 else 1) * (d.digits * 10 ^ d.exponent)

theorem Decimal.abs_toRat (d : Decimal) : |d.toRat| = d.digits * 10 ^ d.exponent := by
  have hpow : (0 : ℚ) < 10 ^ d.exponent := zpow_pos (by norm_num) _
  rw [toRat, abs_mul, abs_of_nonneg (mul_nonneg (Nat.cast_nonneg d.digits) hpow.le)]
  cases d.negative
  · rw [if_neg Bool.false_ne_true, abs_one, one_mul]
  · rw [if_pos rfl, abs_neg, abs_one, one_mul]

namespace Number

variable {d : Decimal} {units : Int}

theorem limit_le_inUnits {digits : Nat} {exponent : Int} (hpos : digits ≠ 0) (h : 400 ≤ exponent) :
    (limit : ℚ) ≤ inUnits digits exponent := by
  have hlimit : limit * (decimalUnits 1 400).2 < 1 * (decimalUnits 1 400).1 := by decide +kernel
  have hunits := (mul_den_lt_iff _ _ _ _).mp hlimit
  rw [Nat.cast_one, one_mul] at hunits
  calc
    (limit : ℚ) ≤ inUnits 1 400 := hunits.le
    _ ≤ inUnits 1 exponent := inUnits_one_mono h
    _ ≤ inUnits digits exponent := inUnits_le_iff.mpr (Nat.one_le_iff_ne_zero.mpr hpos)

/-- A decimal that the first shortcut answers for is rounded to no finite number. -/
theorem limit_le_nearest {digits : Nat} {exponent : Int} (hpos : digits ≠ 0) (h : 400 ≤ exponent) :
    limit ≤ nearest (decimalUnits digits exponent).1 (decimalUnits digits exponent).2 := by
  have hdvd : Nat.pow 2 (limit.log2 - 52) ∣ limit := by decide +kernel
  have hself : nearestTo limit = limit := nearestTo_natCast hdvd
  rw [nearest_eq_nearestTo (decimalUnits_den_pos _ _), decimalUnits_ratio, ← hself]
  exact nearestTo_mono (Nat.cast_nonneg _) (limit_le_inUnits hpos h)

/-- A decimal that the second shortcut answers for is rounded to zero. -/
theorem nearest_eq_zero {digits : Nat} {exponent : Int} (h : exponent ≤ -(digits.log2 + 1100 : Int)) :
    nearest (decimalUnits digits exponent).1 (decimalUnits digits exponent).2 = 0 := by
  have hwhole : exponent.toNat = 0 := by omega
  have hplaces : digits.log2 + 1100 ≤ (-exponent).toNat := by omega
  have hdigits : digits ≤ Nat.pow 2 (digits.log2 + 1) := Nat.le_of_lt Nat.lt_log2_self
  obtain ⟨k, hk, hone⟩ : ∃ k, k ≤ 1099 ∧ unitsPerOne * 2 ≤ Nat.pow 2 k := ⟨1075, by decide, by decide +kernel⟩
  have hhalf : (decimalUnits digits exponent).1 * 2 ≤ 1 * (decimalUnits digits exponent).2 := by
    calc
      (decimalUnits digits exponent).1 * 2 = digits * Nat.pow 10 exponent.toNat * unitsPerOne * 2 := rfl
      _ = digits * (unitsPerOne * 2) := by
        rw [hwhole, Nat.pow_eq]
        ring
      _ ≤ Nat.pow 2 (digits.log2 + 1) * Nat.pow 2 k := Nat.mul_le_mul hdigits hone
      _ = Nat.pow 2 (digits.log2 + 1 + k) := (pow_two_add _ _).symm
      _ ≤ Nat.pow 2 (-exponent).toNat := Nat.pow_le_pow_right (by decide) (by omega)
      _ ≤ Nat.pow 10 (-exponent).toNat := Nat.pow_le_pow_left (by decide) _
      _ = 1 * (decimalUnits digits exponent).2 := (Nat.one_mul _).symm
  have hle := nearest_mono (decimalUnits_den_pos digits exponent) (by decide : 0 < 2) hhalf
  have hzero : nearest 1 2 = 0 := by decide
  omega

theorem ofRatio_eq_finite_iff {negative : Bool} {num den : Nat} {storable : Storable units.natAbs} :
    ofRatio negative num den = .finite units storable ↔ signed negative (nearest num den) = units := by
  constructor
  · intro h
    unfold ofRatio at h
    split at h
    · exact (Number.finite.inj h)
    · cases h
  · rintro rfl
    have hlimit : nearest num den < limit := by
      have hstorable := storable.2
      rwa [natAbs_signed] at hstorable
    rw [ofRatio, dif_pos hlimit]

/-- Without the shortcuts: a decimal is rounded, whatever its size. -/
theorem ofDecimal_eq_ofRatio (hpos : d.digits ≠ 0) : ofDecimal d =
    ofRatio d.negative (decimalUnits d.digits d.exponent).1 (decimalUnits d.digits d.exponent).2 := by
  unfold ofDecimal
  rw [if_neg hpos]
  split
  case isTrue hlarge =>
    rw [ofRatio, dif_neg (Nat.not_lt_of_le (limit_le_nearest hpos hlarge))]
  case isFalse hlarge =>
    split
    case isTrue hsmall =>
      refine (ofRatio_eq_finite_iff.mpr ?_).symm
      rw [nearest_eq_zero hsmall]
      cases d.negative <;> rfl
    case isFalse hsmall => rfl

/-- A decimal is read as a number other than zero exactly if it is rounded to its magnitude, and has its sign. -/
theorem ofDecimal_eq_finite_iff {storable : Storable units.natAbs} (hunits : units ≠ 0) :
    ofDecimal d = .finite units storable ↔
      nearestTo (inUnits d.digits d.exponent) = units.natAbs ∧ d.negative = decide (units < 0) := by
  by_cases hpos : d.digits = 0
  · have hzero : ofDecimal d = zero := by rw [ofDecimal, if_pos hpos]
    rw [hzero, hpos, inUnits_zero, nearestTo_zero]
    constructor
    · intro h
      exact absurd (Number.finite.inj h).symm hunits
    · rintro ⟨h, -⟩
      omega
  · rw [ofDecimal_eq_ofRatio hpos, ofRatio_eq_finite_iff, nearest_eq_nearestTo (decimalUnits_den_pos _ _),
      decimalUnits_ratio]
    generalize nearestTo (inUnits d.digits d.exponent) = magnitude
    cases d.negative with
    | true =>
      simp only [signed, if_true, true_eq_decide_iff]
      omega
    | false =>
      simp only [signed, Bool.false_eq_true, if_false, false_eq_decide_iff]
      omega

namespace Found

variable {magnitude digits : Nat} {exponent : Int}

/-- With a zero at its end a decimal would stand in a coarser place as well. -/
theorem last_digit (h : Found magnitude digits exponent) : digits % 10 ≠ 0 := by
  intro hzero
  have hshift := inUnits_shift (digits / 10) exponent 1
  rw [pow_one, Nat.div_mul_cancel (Nat.dvd_of_mod_eq_zero hzero)] at hshift
  apply h.coarsest (digits / 10) (exponent + 1) (Int.lt_succ exponent)
  exact (congrArg nearestTo hshift).trans h.reads

/-- If a decimal of fewer digits read back, a power of ten between the two would. -/
theorem lt_of_reads (h : Found magnitude digits exponent) (hpos : magnitude ≠ 0) {digits' k : Nat} {exponent' : Int}
    (hreads : nearestTo (inUnits digits' exponent') = magnitude) (hlt : digits' < 10 ^ k) : digits < 10 ^ k := by
  by_contra hge
  have hge : 10 ^ k ≤ digits := Nat.le_of_not_lt hge
  have hplace : exponent' ≤ exponent := by
    by_contra hcoarser
    exact h.coarsest digits' exponent' (by omega) hreads
  have hk : 0 < k := by
    by_contra hzero
    have hnone : digits' = 0 := by
      rw [Nat.eq_zero_of_not_pos hzero] at hlt
      omega
    rw [hnone, inUnits_zero, nearestTo_zero] at hreads
    exact hpos hreads.symm
  have hlow : inUnits digits' exponent' ≤ inUnits 1 (exponent + k) := by
    rw [inUnits_shift, one_mul]
    calc
      inUnits digits' exponent' ≤ inUnits (10 ^ k) exponent' := inUnits_le_iff.mpr hlt.le
      _ = (10 ^ k : Nat) * inUnits 1 exponent' := inUnits_eq_mul _ _
      _ ≤ (10 ^ k : Nat) * inUnits 1 exponent :=
        mul_le_mul_of_nonneg_left (inUnits_one_mono hplace) (Nat.cast_nonneg _)
      _ = inUnits (10 ^ k) exponent := (inUnits_eq_mul _ _).symm
  have hhigh : inUnits 1 (exponent + k) ≤ inUnits digits exponent := by
    rw [inUnits_shift, one_mul]
    exact inUnits_le_iff.mpr hge
  exact h.coarsest 1 (exponent + k) (by omega)
    (nearestTo_eq_of_between (inUnits_nonneg _ _) hlow hhigh hreads h.reads)

end Found

theorem decide_signed_neg (negative : Bool) (n : Nat) : decide (signed negative n < 0) = (negative && n != 0) := by
  cases negative with
  | false => exact decide_eq_false (Int.not_lt.mpr (Int.natCast_nonneg n))
  | true =>
    rw [signed, if_pos rfl, Bool.true_and, Bool.eq_iff_iff, decide_eq_true_iff, bne_iff_ne]
    omega

/-- The decimal of a number other than zero is the one that the search finds. -/
theorem decimalOf_eq (storable : Storable units.natAbs) (hunits : units ≠ 0) :
    decimalOf units =
      ⟨decide (units < 0), (shortestDigits units.natAbs).1, (shortestDigits units.natAbs).2⟩ := by
  have hfound := found_shortestDigits storable (Int.natAbs_ne_zero.mpr hunits)
  have hlast : ¬ ((shortestDigits units.natAbs).1 ≠ 0 ∧ (shortestDigits units.natAbs).1 % 10 = 0) :=
    fun h => hfound.last_digit h.2
  rw [decimalOf, if_neg hunits, Decimal.stripped, dif_neg hlast]

theorem decimalOf_zero : decimalOf 0 = ⟨false, 0, 0⟩ :=
  if_pos rfl

theorem exists_found (storable : Storable units.natAbs) (hunits : units ≠ 0) :
    ∃ digits exponent, Found units.natAbs digits exponent ∧ decimalOf units = ⟨decide (units < 0), digits, exponent⟩ :=
  ⟨_, _, found_shortestDigits storable (Int.natAbs_ne_zero.mpr hunits), decimalOf_eq storable hunits⟩

/-- A decimal that the search finds for the magnitude to which it is rounded is what its number is printed as. -/
theorem decimalOf_ofDecimal {magnitude : Nat} (hpos : d.digits ≠ 0)
    (hnearest : nearest (decimalUnits d.digits d.exponent).1 (decimalUnits d.digits d.exponent).2 = magnitude)
    (hmagnitude : magnitude ≠ 0) (hlimit : magnitude < limit)
    (hfound : shortestDigits magnitude = (d.digits, d.exponent)) :
    ∃ units storable, ofDecimal d = .finite units storable ∧ decimalOf units = d := by
  have hstorable : Storable (signed d.negative magnitude).natAbs := by
    rw [natAbs_signed, ← hnearest]
    exact storable_nearest _ _ (hnearest.trans_lt hlimit)
  refine ⟨signed d.negative magnitude, hstorable, ?_, ?_⟩
  · rw [ofDecimal_eq_ofRatio hpos, ofRatio_eq_finite_iff, hnearest]
  · have hunits : signed d.negative magnitude ≠ 0 := by
      rwa [← Int.natAbs_ne_zero, natAbs_signed]
    rw [decimalOf_eq hstorable hunits, natAbs_signed, hfound, decide_signed_neg, bne_iff_ne.mpr hmagnitude,
      Bool.and_true]

/-- The digits of a number are no more than an amount can hold. -/
theorem decimalOf_digits_le (storable : Storable units.natAbs) : (decimalOf units).digits ≤ 2 * 10 ^ 19 := by
  by_cases hunits : units = 0
  · rw [hunits, decimalOf_zero]
    exact Nat.zero_le _
  · obtain ⟨digits, exponent, hfound, heq⟩ := exists_found storable hunits
    rw [heq]
    exact hfound.small

end Number

/-- A decimal that reads as a number of so many units, with as few digits as any that does. Of those in its place,
none is nearer to the number. -/
structure Decimal.IsShortest (d : Decimal) (units : Int) (storable : Number.Storable units.natAbs) : Prop where
  reads : Number.ofDecimal d = .finite units storable
  fewest : ∀ d', Number.ofDecimal d' = .finite units storable →
    (natText d.digits).length ≤ (natText d'.digits).length
  nearest : ∀ d', d'.exponent = d.exponent → Number.ofDecimal d' = .finite units storable →
    |d.toRat * Number.unitsPerOne - units| ≤ |d'.toRat * Number.unitsPerOne - units|

namespace Number

/-- The signs of a number and its decimal agree, so their distance is that of the magnitudes. -/
theorem abs_toRat_sub {d : Decimal} {units : Int} (hsign : d.negative = decide (units < 0)) :
    |d.toRat * unitsPerOne - units| = |inUnits d.digits d.exponent - units.natAbs| := by
  rw [Decimal.toRat, hsign]
  rcases Int.lt_or_le units 0 with hneg | hnonneg
  · have hcast : (units : ℚ) = -(units.natAbs : ℚ) := by
      rw [← Int.cast_natCast units.natAbs, Int.ofNat_natAbs_of_nonpos hneg.le, Int.cast_neg, neg_neg]
    rw [decide_eq_true hneg, if_pos rfl, hcast, abs_sub_comm, inUnits]
    congr 1
    ring
  · have hcast : (units : ℚ) = units.natAbs := by
      rw [← Int.cast_natCast units.natAbs, Int.natAbs_of_nonneg hnonneg]
    rw [decide_eq_false (Int.not_lt.mpr hnonneg), if_neg Bool.false_ne_true, ← hcast, one_mul, inUnits]

theorem zero_isShortest (storable : Storable (0 : Int).natAbs) : (⟨false, 0, 0⟩ : Decimal).IsShortest 0 storable := by
  refine ⟨?_, ?_, ?_⟩
  · rw [ofDecimal, if_pos rfl, zero]
  · intro d' _
    exact Nat.length_toDigits_pos
  · intro d' _ _
    rw [Decimal.toRat, Nat.cast_zero, zero_mul, mul_zero, zero_mul, Int.cast_zero, sub_zero, abs_zero]
    exact abs_nonneg _

theorem Found.isShortest {units : Int} {storable : Storable units.natAbs} {digits : Nat} {exponent : Int}
    (h : Found units.natAbs digits exponent) (hunits : units ≠ 0) :
    (⟨decide (units < 0), digits, exponent⟩ : Decimal).IsShortest units storable := by
  have hpos : units.natAbs ≠ 0 := Int.natAbs_ne_zero.mpr hunits
  refine ⟨(ofDecimal_eq_finite_iff hunits).mpr ⟨h.reads, rfl⟩, ?_, ?_⟩
  · intro d' hread
    have hread := ((ofDecimal_eq_finite_iff hunits).mp hread).1
    have hlength : d'.digits < 10 ^ (Decimal.natText d'.digits).length :=
      (Nat.length_toDigits_le_iff (by decide) Nat.length_toDigits_pos).mp le_rfl
    exact (Nat.length_toDigits_le_iff (by decide) Nat.length_toDigits_pos).mpr (h.lt_of_reads hpos hread hlength)
  · intro d' hplace hread
    obtain ⟨hread, hsign⟩ := (ofDecimal_eq_finite_iff hunits).mp hread
    rw [abs_toRat_sub rfl, abs_toRat_sub hsign, hplace]
    rw [hplace] at hread
    exact h.nearest d'.digits hread

/-- What a number is printed as is its shortest decimal. -/
theorem decimalOf_isShortest (units : Int) (storable : Storable units.natAbs) :
    (decimalOf units).IsShortest units storable := by
  by_cases hunits : units = 0
  · subst hunits
    rw [decimalOf_zero]
    exact zero_isShortest storable
  · obtain ⟨digits, exponent, hfound, heq⟩ := exists_found storable hunits
    rw [heq]
    exact hfound.isShortest hunits

end Number

end TextTemplate
