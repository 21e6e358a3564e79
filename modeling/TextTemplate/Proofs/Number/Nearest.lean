import Mathlib.Data.Rat.Floor
import TextTemplate.Proofs.Number.ReadBack

namespace TextTemplate.Number

/-- A magnitude of at most 53 significant binary digits. There is no largest one. -/
def Fits (magnitude : Nat) : Prop :=
  Nat.pow 2 (magnitude.log2 - 52) ∣ magnitude

/-- The last of the 53 digits is zero. -/
def EndsEven (magnitude : Nat) : Prop :=
  2 * Nat.pow 2 (magnitude.log2 - 52) ∣ magnitude

/-- Of all magnitudes of 53 digits none is nearer, and if another one is as near, this one ends even. -/
structure IsNearest (x : ℚ) (magnitude : Nat) : Prop where
  fits : Fits magnitude
  nearest : ∀ m, Fits m → |x - magnitude| ≤ |x - m|
  endsEven : ∀ m, Fits m → m ≠ magnitude → |x - m| = |x - magnitude| → EndsEven magnitude

section Grid

variable {m m' p r k : Nat} {x step : ℚ}

theorem cast_two_pow (p : Nat) : ((Nat.pow 2 p : Nat) : ℚ) = 2 ^ p := by
  rw [Nat.pow_eq, Nat.cast_pow, Nat.cast_ofNat]

theorem cast_mul_two_pow (k p : Nat) : ((k * Nat.pow 2 p : Nat) : ℚ) = k * 2 ^ p := by
  rw [Nat.cast_mul, cast_two_pow]

theorem fits_of_le (h : m ≤ Nat.pow 2 53) (p : Nat) : Fits (m * Nat.pow 2 p) :=
  dvd_of_le_two_pow m p h

/-- Magnitudes of many digits have zeros at their end. -/
theorem Fits.dvd (h : Fits m) (hm : Nat.pow 2 (52 + p) ≤ m) : Nat.pow 2 p ∣ m := by
  have hpos : m ≠ 0 := fun hzero => absurd (pow_two_pos (52 + p)) (by omega)
  have hlog : 52 + p ≤ m.log2 := (Nat.le_log2 hpos).mpr hm
  exact (Nat.pow_dvd_pow 2 (by omega)).trans h

theorem endsEven_of_even (heven : r % 2 = 0) (hr : r ≤ Nat.pow 2 53) (p : Nat) : EndsEven (r * Nat.pow 2 p) := by
  rcases Nat.eq_zero_or_pos r with rfl | hpos
  · rw [Nat.zero_mul]
    exact dvd_zero _
  have hne : r * Nat.pow 2 p ≠ 0 := Nat.mul_ne_zero hpos.ne' (pow_two_pos p).ne'
  rcases Nat.eq_or_lt_of_le hr with rfl | hlt
  · have hpow : Nat.pow 2 53 * Nat.pow 2 p = Nat.pow 2 (53 + p) := (pow_two_add 53 p).symm
    have hlog : (Nat.pow 2 (53 + p)).log2 = 53 + p := Nat.log2_two_pow
    have htwice : 2 * Nat.pow 2 (53 + p - 52) = Nat.pow 2 (53 + p - 52 + 1) := Nat.pow_succ'.symm
    rw [EndsEven, hpow, hlog, htwice]
    exact Nat.pow_dvd_pow 2 (by omega)
  · have hmagnitude : r * Nat.pow 2 p < Nat.pow 2 (53 + p) := by
      rw [pow_two_add]
      exact Nat.mul_lt_mul_of_pos_right hlt (pow_two_pos p)
    have hlog := (Nat.log2_lt hne).mpr hmagnitude
    have hplaces : Nat.pow 2 ((r * Nat.pow 2 p).log2 - 52) ∣ Nat.pow 2 p := Nat.pow_dvd_pow 2 (by omega)
    exact (Nat.mul_dvd_mul_left 2 hplaces).trans (Nat.mul_dvd_mul_right (Nat.dvd_of_mod_eq_zero heven) _)

/-- On a grid, what is not the nearest point is at least half a step away. -/
theorem half_step_le (hstep : 0 < step) (hnear : |x - r * step| ≤ step / 2) (hne : k ≠ r) :
    step / 2 ≤ |x - k * step| := by
  have hapart : (1 : ℚ) ≤ |(k : ℚ) - r| := by
    exact_mod_cast Int.one_le_abs (sub_ne_zero.mpr (Nat.cast_injective.ne hne))
  have hdistance : step ≤ |(k : ℚ) * step - r * step| := by
    rw [← sub_mul, abs_mul, abs_of_pos hstep]
    exact le_mul_of_one_le_left hstep.le hapart
  have htriangle := abs_sub_le ((k : ℚ) * step) x (r * step)
  rw [abs_sub_comm (k * step) x] at htriangle
  linarith

/-- The result of rounding is a point of a grid, at most half a step away and even where it is half a step away; and a
quantity for which digits are dropped has at least 53 of them in front of the grid's step. -/
theorem exists_nearestTo_eq (hx : 0 ≤ x) : ∃ r p, nearestTo x = r * Nat.pow 2 p ∧ r ≤ Nat.pow 2 53 ∧
    (p ≠ 0 → (2 : ℚ) ^ 52 * 2 ^ p ≤ x) ∧ |x - r * 2 ^ p| ≤ 2 ^ p / 2 ∧ (|x - r * 2 ^ p| = 2 ^ p / 2 → r % 2 = 0) := by
  have hden : (0 : ℚ) < x.den := Nat.cast_pos.mpr x.den_pos
  obtain ⟨hlow, hhigh, heven⟩ := roundHalfEven_spec x.num.natAbs (Nat.mul_pos x.den_pos (pow_two_pos
    (droppedPlaces x.num.natAbs x.den)))
  have hkept := kept_le x.num.natAbs x.den
  have hdropped : droppedPlaces x.num.natAbs x.den ≠ 0 →
      (2 : ℚ) ^ 52 * 2 ^ droppedPlaces x.num.natAbs x.den ≤ x := by
    intro hplaces
    have hlog : (x.num.natAbs / x.den).log2 = 52 + droppedPlaces x.num.natAbs x.den := by
      unfold droppedPlaces at hplaces ⊢
      omega
    have hpos : x.num.natAbs / x.den ≠ 0 := by
      intro hzero
      rw [hzero, Nat.log2_zero] at hlog
      omega
    have hpow : 2 ^ (52 + droppedPlaces x.num.natAbs x.den) * x.den ≤ x.num.natAbs := by
      rw [← hlog]
      exact (Nat.mul_le_mul_right _ (Nat.log2_self_le hpos)).trans (Nat.div_mul_le_self _ _)
    have hcast : ((2 ^ (52 + droppedPlaces x.num.natAbs x.den) * x.den : Nat) : ℚ) ≤ x.num.natAbs := by
      exact_mod_cast hpow
    rw [natAbs_num hx, Nat.cast_mul, mul_le_mul_iff_left₀ hden, Nat.cast_pow, Nat.cast_ofNat, pow_add] at hcast
    exact hcast
  refine ⟨_, _, rfl, hkept, hdropped, ?_⟩
  generalize roundHalfEven x.num.natAbs (x.den * Nat.pow 2 (droppedPlaces x.num.natAbs x.den)) = r at *
  generalize droppedPlaces x.num.natAbs x.den = p at *
  -- In natural numbers, everything is multiplied by the denominator.
  have hscale : (x - r * 2 ^ p) * (2 * x.den) = 2 * x.num.natAbs - 2 * (x.den * 2 ^ p * r) := by
    rw [natAbs_num hx]
    ring
  have hlow : (2 : ℚ) * (x.den * 2 ^ p * r) ≤ 2 * x.num.natAbs + x.den * 2 ^ p := by exact_mod_cast hlow
  have hhigh : (2 : ℚ) * x.num.natAbs ≤ 2 * (x.den * 2 ^ p * r) + x.den * 2 ^ p := by exact_mod_cast hhigh
  have hpos : (0 : ℚ) < 2 * x.den := by linarith
  constructor
  · rw [abs_le]
    constructor
    · apply le_of_mul_le_mul_right _ hpos
      linarith
    · apply le_of_mul_le_mul_right _ hpos
      linarith
  · intro htie
    apply heven
    rcases (abs_eq (by positivity)).mp htie with habove | hbelow
    · left
      rw [habove] at hscale
      have hcast : (2 : ℚ) * x.num.natAbs = 2 * (x.den * 2 ^ p * r) + x.den * 2 ^ p := by linarith
      exact_mod_cast hcast
    · right
      rw [hbelow] at hscale
      have hcast : (2 : ℚ) * x.num.natAbs + x.den * 2 ^ p = 2 * (x.den * 2 ^ p * r) := by linarith
      exact_mod_cast hcast

/-- Rounding gives the nearest magnitude of 53 digits. -/
theorem isNearest_nearestTo (hx : 0 ≤ x) : IsNearest x (nearestTo x) := by
  obtain ⟨r, p, hresult, hr, hlarge, hnear, heven⟩ := exists_nearestTo_eq hx
  have hstep : (0 : ℚ) < 2 ^ p := by positivity
  -- A magnitude beside the grid lies so far below that the grid has a nearer point.
  have hbeside : ∀ m, Fits m → ¬ Nat.pow 2 p ∣ m → |x - r * 2 ^ p| < |x - m| := by
    intro m hm hnot
    have hp : p ≠ 0 := by
      rintro rfl
      exact hnot (Nat.one_dvd m)
    have hsmall : m < Nat.pow 2 (52 + p) := Nat.lt_of_not_le fun hle => hnot (hm.dvd hle)
    have hsmall : (m : ℚ) < 2 ^ 52 * 2 ^ p := by
      rw [← pow_add]
      exact_mod_cast hsmall
    have hbelow : |x - r * 2 ^ p| ≤ x - 2 ^ 52 * 2 ^ p := by
      by_cases hr52 : 2 ^ 52 = r
      · rw [← hr52, Nat.cast_pow, Nat.cast_ofNat, abs_of_nonneg (sub_nonneg.mpr (hlarge hp))]
      · have hhalf := half_step_le hstep hnear hr52
        rw [Nat.cast_pow, Nat.cast_ofNat, abs_of_nonneg (sub_nonneg.mpr (hlarge hp))] at hhalf
        linarith
    rw [abs_of_pos (sub_pos.mpr (hsmall.trans_le (hlarge hp)))]
    linarith
  rw [hresult]
  refine ⟨fits_of_le hr p, ?_, ?_⟩
  · intro m hm
    rw [cast_mul_two_pow]
    by_cases hgrid : Nat.pow 2 p ∣ m
    · obtain ⟨k, rfl⟩ := hgrid
      rw [Nat.mul_comm, cast_mul_two_pow]
      by_cases hk : k = r
      · rw [hk]
      · exact hnear.trans (half_step_le hstep hnear hk)
    · exact (hbeside m hm hgrid).le
  · intro m hm hne htie
    rw [cast_mul_two_pow] at htie
    apply endsEven_of_even _ hr
    by_cases hgrid : Nat.pow 2 p ∣ m
    · obtain ⟨k, rfl⟩ := hgrid
      rw [Nat.mul_comm, cast_mul_two_pow] at htie
      have hk : k ≠ r := by
        rintro rfl
        exact hne (Nat.mul_comm _ _)
      have hhalf := half_step_le hstep hnear hk
      exact heven (by linarith)
    · have := hbeside m hm hgrid
      linarith

end Grid

section Distance

variable {p : Nat} {x y : ℚ}

theorem exists_nat_near (hy : 0 ≤ y) : ∃ k : Nat, |y - k| ≤ 1 / 2 ∧ ∀ n : Nat, y ≤ n → k ≤ n := by
  refine ⟨⌊y + 1 / 2⌋₊, ?_, ?_⟩
  · have hlow := Nat.floor_le (a := y + 1 / 2) (by linarith)
    have hhigh := Nat.lt_floor_add_one (y + 1 / 2)
    rw [abs_le]
    constructor <;> linarith
  · intro n hn
    apply Nat.lt_add_one_iff.mp
    apply (Nat.floor_lt (by linarith)).mpr
    push_cast
    linarith

/-- Up to `2 ^ (53 + p)` there is a magnitude of 53 digits at every multiple of `2 ^ p`. -/
theorem abs_sub_nearestTo_le (hx : 0 ≤ x) (h : x ≤ 2 ^ 53 * 2 ^ p) : |x - nearestTo x| ≤ 2 ^ p / 2 := by
  have hstep : (0 : ℚ) < 2 ^ p := by positivity
  obtain ⟨k, hnear, hleast⟩ := exists_nat_near (div_nonneg hx hstep.le)
  have hk : k ≤ Nat.pow 2 53 := by
    apply hleast
    rw [div_le_iff₀ hstep, cast_two_pow]
    exact h
  have hscaled : x - k * 2 ^ p = (x / 2 ^ p - k) * 2 ^ p := by
    rw [sub_mul, div_mul_cancel₀ x hstep.ne']
  calc
    |x - nearestTo x| ≤ |x - (k * Nat.pow 2 p : Nat)| := (isNearest_nearestTo hx).nearest _ (fits_of_le hk p)
    _ = |x / 2 ^ p - k| * 2 ^ p := by rw [cast_mul_two_pow, hscaled, abs_mul, abs_of_pos hstep]
    _ ≤ 1 / 2 * 2 ^ p := mul_le_mul_of_nonneg_right hnear hstep.le
    _ = 2 ^ p / 2 := by ring

/-- From `2 ^ (52 + p)` on there are only multiples of `2 ^ p`. -/
theorem dvd_nearestTo (h : 2 ^ 52 * 2 ^ p ≤ x) : Nat.pow 2 p ∣ nearestTo x := by
  have hself : nearestTo ((Nat.pow 2 52 * Nat.pow 2 p : Nat) : ℚ) = Nat.pow 2 52 * Nat.pow 2 p :=
    nearestTo_natCast (fits_of_le (by decide) p)
  have hpow : (0 : ℚ) < 2 ^ p := by positivity
  have hx : 0 ≤ x := by linarith
  apply (isNearest_nearestTo hx).fits.dvd
  rw [pow_two_add, ← hself]
  apply nearestTo_mono (Nat.cast_nonneg _)
  rw [cast_mul_two_pow, cast_two_pow]
  exact h

end Distance

section Unique

variable {m m' : Nat} {x : ℚ}

/-- The next magnitude of 53 digits lies one unit of the last digit above. -/
theorem Fits.next (h : Fits m) : Fits (m + Nat.pow 2 (m.log2 - 52)) := by
  obtain ⟨k, hk⟩ := h
  have hpos := pow_two_pos (m.log2 - 52)
  have hlt : m < Nat.pow 2 (53 + (m.log2 - 52)) := by
    calc
      m < Nat.pow 2 (m.log2 + 1) := Nat.lt_log2_self
      _ ≤ Nat.pow 2 (53 + (m.log2 - 52)) := Nat.pow_le_pow_right (by decide) (by omega)
  have hkept : k < Nat.pow 2 53 := by
    rw [pow_two_add, Nat.mul_comm] at hlt
    apply Nat.lt_of_mul_lt_mul_left (a := Nat.pow 2 (m.log2 - 52))
    rwa [← hk]
  have hnext : m + Nat.pow 2 (m.log2 - 52) = (k + 1) * Nat.pow 2 (m.log2 - 52) := by
    rw [Nat.add_mul, Nat.one_mul, Nat.mul_comm k, ← hk]
  rw [hnext]
  exact fits_of_le hkept _

theorem Fits.next_le (h : Fits m) (h' : Fits m') (hlt : m < m') : m + Nat.pow 2 (m.log2 - 52) ≤ m' := by
  have hplaces : Nat.pow 2 (m.log2 - 52) ∣ Nat.pow 2 (m'.log2 - 52) :=
    Nat.pow_dvd_pow 2 (Nat.sub_le_sub_right (log2_mono hlt.le) 52)
  have hgap : Nat.pow 2 (m.log2 - 52) ∣ m' - m := Nat.dvd_sub (hplaces.trans h') h
  have hle := Nat.le_of_dvd (Nat.sub_pos_of_lt hlt) hgap
  omega

/-- Of two neighbours only one ends even. -/
theorem EndsEven.next_ne (h : EndsEven m) (h' : EndsEven m') (hlt : m < m') : m + Nat.pow 2 (m.log2 - 52) ≠ m' := by
  intro hnext
  have hplaces : 2 * Nat.pow 2 (m.log2 - 52) ∣ 2 * Nat.pow 2 (m'.log2 - 52) :=
    Nat.mul_dvd_mul_left 2 (Nat.pow_dvd_pow 2 (Nat.sub_le_sub_right (log2_mono hlt.le) 52))
  have hgap := Nat.dvd_sub (hplaces.trans h') h
  rw [← hnext, Nat.add_sub_cancel_left] at hgap
  have hle := Nat.le_of_dvd (pow_two_pos _) hgap
  have hpos := pow_two_pos (m.log2 - 52)
  omega

theorem IsNearest.not_lt (h : IsNearest x m) (h' : IsNearest x m') : ¬ m < m' := by
  intro hlt
  have htie : |x - m| = |x - m'| := le_antisymm (h.nearest m' h'.fits) (h'.nearest m h.fits)
  have heven : EndsEven m := h.endsEven m' h'.fits hlt.ne' htie.symm
  have heven' : EndsEven m' := h'.endsEven m h.fits hlt.ne htie
  have hbetween : m + Nat.pow 2 (m.log2 - 52) < m' :=
    Nat.lt_of_le_of_ne (h.fits.next_le h'.fits hlt) (heven.next_ne heven' hlt)
  have hnearest := h.nearest _ h.fits.next
  have habove : m < m + Nat.pow 2 (m.log2 - 52) := Nat.lt_add_of_pos_right (pow_two_pos _)
  generalize m + Nat.pow 2 (m.log2 - 52) = middle at hbetween hnearest habove
  have hlow : (m : ℚ) < middle := Nat.cast_lt.mpr habove
  have hhigh : (middle : ℚ) < m' := Nat.cast_lt.mpr hbetween
  -- Half way between the two, everything between them is nearer.
  rcases abs_eq_abs.mp htie with hsame | hopposite
  · linarith
  · have hdistance : |x - middle| < |x - m| := by
      rw [abs_of_pos (a := x - m) (by linarith), abs_lt]
      constructor <;> linarith
    linarith

theorem IsNearest.unique (h : IsNearest x m) (h' : IsNearest x m') : m = m' := by
  have hlow := h.not_lt h'
  have hhigh := h'.not_lt h
  omega

end Unique

/-- A quantity correctly rounded: to the nearest number, which keeps its sign. What is rounded to a magnitude from the
limit on is infinite. -/
inductive RoundsTo (q : ℚ) : Number → Prop
  | finite {units : Int} {storable : Storable units.natAbs} (hnearest : IsNearest (|q| * unitsPerOne) units.natAbs)
    (hneg : units < 0 → q < 0) (hpos : 0 < units → 0 < q) : RoundsTo q (.finite units storable)
  | infinite {negative : Bool} {m : Nat} (hnearest : IsNearest (|q| * unitsPerOne) m) (hlimit : limit ≤ m)
    (hsign : negative = true ↔ q < 0) : RoundsTo q (.infinite negative)

theorem RoundsTo.unique {q : ℚ} {n n' : Number} (h : RoundsTo q n) (h' : RoundsTo q n') : n = n' := by
  cases h with
  | @finite units storable hnearest hneg hpos =>
    cases h' with
    | @finite units' storable' hnearest' hneg' hpos' =>
      have hsame : units = units' := by
        rcases Int.natAbs_eq_natAbs_iff.mp (hnearest.unique hnearest') with hunits | hunits
        · exact hunits
        · rcases lt_trichotomy units 0 with hlt | hzero | hgt
          · exact absurd (hneg hlt) (not_lt_of_gt (hpos' (by omega)))
          · omega
          · exact absurd (hpos hgt) (not_lt_of_gt (hneg' (by omega)))
      subst hsame
      rfl
    | infinite hnearest' hlimit _ =>
      have hsame := hnearest.unique hnearest'
      have hstorable := storable.2
      omega
  | infinite hnearest hlimit hsign =>
    cases h' with
    | @finite units' storable' hnearest' _ _ =>
      have hsame := hnearest.unique hnearest'
      have hstorable := storable'.2
      omega
    | infinite _ _ hsign' => rw [Bool.eq_iff_iff.mpr (hsign.trans hsign'.symm)]

theorem roundsTo_ofRatio {q : ℚ} {negative : Bool} {num den : Nat}
    (hnearest : IsNearest (|q| * unitsPerOne) (nearest num den)) (hsign : negative = true ↔ q < 0) (hne : q ≠ 0) :
    RoundsTo q (ofRatio negative num den) := by
  unfold ofRatio
  split
  case isTrue hlimit =>
    refine .finite (by rwa [natAbs_signed]) ?_ ?_
    · intro hneg
      apply hsign.mp
      by_contra hnot
      rw [Bool.eq_false_iff.mpr hnot, signed, if_neg Bool.false_ne_true] at hneg
      omega
    · intro hgt
      apply lt_of_le_of_ne _ hne.symm
      by_contra hnot
      rw [hsign.mpr (lt_of_not_ge hnot), signed, if_pos rfl] at hgt
      omega
  case isFalse hlimit => exact .infinite hnearest (Nat.le_of_not_lt hlimit) hsign

/-- Decimals are read as the numbers to which they are correctly rounded. -/
theorem roundsTo_ofDecimal (d : Decimal) : RoundsTo d.toRat (ofDecimal d) := by
  have hunits : |d.toRat| * unitsPerOne = inUnits d.digits d.exponent := by
    rw [Decimal.abs_toRat, inUnits]
  have hnearest : IsNearest (|d.toRat| * unitsPerOne) (nearestTo (inUnits d.digits d.exponent)) := by
    rw [hunits]
    exact isNearest_nearestTo (inUnits_nonneg _ _)
  by_cases hpos : d.digits = 0
  · have hzero : ofDecimal d = zero := by rw [ofDecimal, if_pos hpos]
    rw [hpos, inUnits_zero, nearestTo_zero] at hnearest
    rw [hzero]
    exact .finite hnearest (fun h => absurd h (lt_irrefl 0)) (fun h => absurd h (lt_irrefl 0))
  · have hvalue : (0 : ℚ) < d.digits * 10 ^ d.exponent :=
      mul_pos (Nat.cast_pos.mpr (Nat.pos_of_ne_zero hpos)) (zpow_pos (by norm_num) _)
    have hsign : d.negative = true ↔ d.toRat < 0 := by
      rw [Decimal.toRat]
      cases d.negative with
      | true =>
        rw [if_pos rfl, neg_one_mul]
        exact iff_of_true rfl (neg_neg_of_pos hvalue)
      | false =>
        rw [if_neg Bool.false_ne_true, one_mul]
        exact iff_of_false Bool.false_ne_true (not_lt_of_gt hvalue)
    have hne : d.toRat ≠ 0 := by
      rw [← abs_pos, Decimal.abs_toRat]
      exact hvalue
    rw [← decimalUnits_ratio, ← nearest_eq_nearestTo (decimalUnits_den_pos _ _)] at hnearest
    rw [ofDecimal_eq_ofRatio hpos]
    exact roundsTo_ofRatio hnearest hsign hne

theorem roundsTo_iff {d : Decimal} {n : Number} : RoundsTo d.toRat n ↔ ofDecimal d = n := by
  constructor
  · exact fun h => (roundsTo_ofDecimal d).unique h
  · rintro rfl
    exact roundsTo_ofDecimal d

/-- Reading depends on the value of a decimal only. -/
theorem ofDecimal_congr {d d' : Decimal} (h : d.toRat = d'.toRat) : ofDecimal d = ofDecimal d' := by
  apply roundsTo_iff.mp
  rw [h]
  exact roundsTo_ofDecimal d'

/-- A decimal that is worth a number is read as this number. -/
theorem ofDecimal_of_toRat {d : Decimal} {units : Int} (storable : Storable units.natAbs)
    (h : d.toRat * unitsPerOne = units) : ofDecimal d = .finite units storable := by
  have hpos := unitsPerOne_cast_pos
  have hmagnitude : |d.toRat| * unitsPerOne = units.natAbs := by
    rw [← abs_of_pos hpos, ← abs_mul, h, Nat.cast_natAbs, Int.cast_abs]
  apply roundsTo_iff.mp
  refine .finite ?_ ?_ ?_
  · rw [hmagnitude]
    have hnearest := isNearest_nearestTo (x := units.natAbs) (Nat.cast_nonneg _)
    rwa [nearestTo_natCast storable.1] at hnearest
  · intro hneg
    have hunits : d.toRat * unitsPerOne < 0 := by
      rw [h]
      exact_mod_cast hneg
    exact neg_of_mul_neg_left hunits hpos.le
  · intro hgt
    have hunits : 0 < d.toRat * unitsPerOne := by
      rw [h]
      exact_mod_cast hgt
    exact pos_of_mul_pos_left hunits hpos.le

end TextTemplate.Number
