import Mathlib.Algebra.Order.Field.Basic
import Mathlib.Data.Nat.Log
import Mathlib.Data.Rat.Cast.Order
import Mathlib.Tactic.FieldSimp
import Mathlib.Tactic.Linarith
import Mathlib.Tactic.Positivity
import Mathlib.Tactic.Ring
import TextTemplate.Number.Basic

namespace TextTemplate.Number

section HalfEven

variable {num den num' den' q : Nat}

/-- A rounded quotient is at most a half away, and even where it is a half away. -/
theorem roundHalfEven_spec (num : Nat) (hden : 0 < den) :
    2 * (den * roundHalfEven num den) ≤ 2 * num + den ∧ 2 * num ≤ 2 * (den * roundHalfEven num den) + den ∧
      (2 * num = 2 * (den * roundHalfEven num den) + den ∨ 2 * num + den = 2 * (den * roundHalfEven num den) →
        roundHalfEven num den % 2 = 0) := by
  have hdiv := Nat.div_add_mod num den
  have hmod := Nat.mod_lt num hden
  unfold roundHalfEven
  split
  · omega
  · split
    · rw [Nat.mul_add, Nat.mul_one]
      omega
    · rcases Nat.mod_two_eq_zero_or_one (num / den) with heven | hodd
      · rw [heven, Nat.add_zero]
        omega
      · rw [hodd, Nat.mul_add, Nat.mul_one]
        omega

theorem le_roundHalfEven (hden : 0 < den) (h : q * den ≤ num) : q ≤ roundHalfEven num den := by
  have hdiv : q ≤ num / den := (Nat.le_div_iff_mul_le hden).mpr h
  unfold roundHalfEven
  split
  · exact hdiv
  · split <;> omega

theorem roundHalfEven_eq (hden : 0 < den) (hlow : 2 * (q * den) < 2 * num + den)
    (hhigh : 2 * num < 2 * (q * den) + den) : roundHalfEven num den = q := by
  obtain ⟨hle, hge, -⟩ := roundHalfEven_spec num hden
  rw [Nat.mul_comm den] at hle hge
  have hupper : roundHalfEven num den < q + 1 := by
    by_contra hmore
    have hmul := Nat.mul_le_mul_right den (Nat.le_of_not_lt hmore)
    rw [Nat.add_mul, Nat.one_mul] at hmul
    omega
  have hlower : q < roundHalfEven num den + 1 := by
    by_contra hless
    have hmul := Nat.mul_le_mul_right den (Nat.le_of_not_lt hless)
    rw [Nat.add_mul, Nat.one_mul] at hmul
    omega
  omega

theorem roundHalfEven_mono (hden : 0 < den) (hden' : 0 < den') (h : num * den' ≤ num' * den) :
    roundHalfEven num den ≤ roundHalfEven num' den' := by
  by_contra hlt
  obtain ⟨hle, -, heven⟩ := roundHalfEven_spec num hden
  obtain ⟨-, hge', heven'⟩ := roundHalfEven_spec num' hden'
  generalize roundHalfEven num den = q at *
  generalize roundHalfEven num' den' = q' at *
  -- The greater of the two has to be the next one, both half way, and so both would be even.
  have hnext : q' + 1 ≤ q := by omega
  have hcross := Nat.mul_le_mul_left (den * den') hnext
  have hleft := Nat.mul_le_mul_right den' hle
  have hright := Nat.mul_le_mul_right den hge'
  have htie : 2 * num + den = 2 * (den * q) := by
    apply Nat.eq_of_mul_eq_mul_right hden'
    linarith
  have htie' : 2 * num' = 2 * (den' * q') + den' := by
    apply Nat.eq_of_mul_eq_mul_right hden
    linarith
  have hq : q = q' + 1 := by
    apply Nat.eq_of_mul_eq_mul_left (Nat.mul_pos hden hden')
    linarith
  have heven := heven (.inr htie)
  have heven' := heven' (.inl htie')
  omega

end HalfEven

section Nearest

variable {num den num' den' magnitude : Nat}

theorem log2_mono {m n : Nat} (h : m ≤ n) : m.log2 ≤ n.log2 := by
  simpa only [Nat.log2_eq_log_two] using Nat.log_mono_right h

theorem droppedPlaces_mono (hden : 0 < den) (hden' : 0 < den') (h : num * den' ≤ num' * den) :
    droppedPlaces num den ≤ droppedPlaces num' den' := by
  have hdiv : num / den ≤ num' / den' := by
    apply (Nat.le_div_iff_mul_le hden').mpr
    apply Nat.le_of_mul_le_mul_right (c := den) _ hden
    calc
      num / den * den' * den = num / den * den * den' := by ring
      _ ≤ num * den' := Nat.mul_le_mul_right den' (Nat.div_mul_le_self num den)
      _ ≤ num' * den := h
  have hlog := log2_mono hdiv
  unfold droppedPlaces
  omega

/-- Where places are dropped, 53 binary digits are kept. -/
theorem le_kept (hden : 0 < den) (h : droppedPlaces num den ≠ 0) :
    Nat.pow 2 52 ≤ roundHalfEven num (den * Nat.pow 2 (droppedPlaces num den)) := by
  have hlog : (num / den).log2 = 52 + droppedPlaces num den := by
    unfold droppedPlaces at h ⊢
    omega
  have hpos : num / den ≠ 0 := by
    intro hzero
    rw [hzero, Nat.log2_zero] at hlog
    omega
  have hpow : Nat.pow 2 52 * Nat.pow 2 (droppedPlaces num den) ≤ num / den := by
    rw [← pow_two_add, ← hlog]
    exact Nat.log2_self_le hpos
  apply le_roundHalfEven (Nat.mul_pos hden (pow_two_pos _))
  calc
    Nat.pow 2 52 * (den * Nat.pow 2 (droppedPlaces num den)) =
        Nat.pow 2 52 * Nat.pow 2 (droppedPlaces num den) * den := by ring
    _ ≤ num / den * den := Nat.mul_le_mul_right den hpow
    _ ≤ num := Nat.div_mul_le_self num den

/-- The order of quotients is kept. -/
theorem nearest_mono (hden : 0 < den) (hden' : 0 < den') (h : num * den' ≤ num' * den) :
    nearest num den ≤ nearest num' den' := by
  have hplaces := droppedPlaces_mono hden hden' h
  rcases Nat.eq_or_lt_of_le hplaces with hsame | hfewer
  · unfold nearest
    rw [hsame]
    apply Nat.mul_le_mul_right
    apply roundHalfEven_mono (Nat.mul_pos hden (pow_two_pos _)) (Nat.mul_pos hden' (pow_two_pos _))
    calc
      num * (den' * Nat.pow 2 (droppedPlaces num' den')) = num * den' * Nat.pow 2 (droppedPlaces num' den') := by ring
      _ ≤ num' * den * Nat.pow 2 (droppedPlaces num' den') := Nat.mul_le_mul_right _ h
      _ = num' * (den * Nat.pow 2 (droppedPlaces num' den')) := by ring
  · have hpow : Nat.pow 2 (53 + droppedPlaces num den) ≤ Nat.pow 2 (52 + droppedPlaces num' den') :=
      Nat.pow_le_pow_right (by decide) (by omega)
    calc
      nearest num den ≤ Nat.pow 2 53 * Nat.pow 2 (droppedPlaces num den) :=
        Nat.mul_le_mul_right _ (kept_le num den)
      _ = Nat.pow 2 (53 + droppedPlaces num den) := (pow_two_add _ _).symm
      _ ≤ Nat.pow 2 (52 + droppedPlaces num' den') := hpow
      _ = Nat.pow 2 52 * Nat.pow 2 (droppedPlaces num' den') := pow_two_add _ _
      _ ≤ nearest num' den' := Nat.mul_le_mul_right _ (le_kept hden' (by omega))

theorem le_droppedPlaces (hden : 0 < den) (h : magnitude * den ≤ 2 * num) :
    magnitude.log2 ≤ droppedPlaces num den + 53 := by
  have hhalf : magnitude / 2 ≤ num / den := by
    apply (Nat.le_div_iff_mul_le hden).mpr
    have hdouble : magnitude / 2 * 2 * den ≤ magnitude * den := Nat.mul_le_mul_right den (Nat.div_mul_le_self _ 2)
    linarith
  have hlog := log2_mono hhalf
  have hlast : magnitude.log2 ≤ (magnitude / 2).log2 + 1 := by
    rw [Nat.log2_def magnitude]
    split <;> omega
  unfold droppedPlaces
  omega

/-- A quotient that lies at or closely below a magnitude of 53 binary digits is rounded to that magnitude. -/
theorem nearest_eq_of_close (hden : 0 < den) (hdvd : Nat.pow 2 (magnitude.log2 - 52) ∣ magnitude)
    (hle : num ≤ magnitude * den) (hclose : (magnitude * den - num) * Nat.pow 2 55 ≤ magnitude * den) :
    nearest num den = magnitude := by
  have hplaces : droppedPlaces num den ≤ magnitude.log2 - 52 := by
    have hdiv : num / den ≤ magnitude := Nat.div_le_of_le_mul (by rwa [Nat.mul_comm])
    exact Nat.sub_le_sub_right (log2_mono hdiv) 52
  obtain ⟨q, hq⟩ := (Nat.pow_dvd_pow 2 hplaces).trans hdvd
  have hlog : magnitude.log2 ≤ droppedPlaces num den + 53 := le_droppedPlaces hden (by
    have h55 : 2 ≤ Nat.pow 2 55 := by decide
    have htwice := (Nat.mul_le_mul_left (magnitude * den - num) h55).trans hclose
    omega)
  have hpow : magnitude < Nat.pow 2 (54 + droppedPlaces num den) := by
    calc
      magnitude < Nat.pow 2 (magnitude.log2 + 1) := Nat.lt_log2_self
      _ ≤ Nat.pow 2 (54 + droppedPlaces num den) := Nat.pow_le_pow_right (by decide) (by omega)
  have hunits : magnitude * den = q * (den * Nat.pow 2 (droppedPlaces num den)) := by
    nth_rewrite 1 [hq]
    rw [Nat.pow_eq]
    ring
  have hgap : 2 * (magnitude * den - num) < den * Nat.pow 2 (droppedPlaces num den) := by
    apply Nat.lt_of_mul_lt_mul_right (a := Nat.pow 2 54)
    calc
      2 * (magnitude * den - num) * Nat.pow 2 54 = (magnitude * den - num) * Nat.pow 2 55 := by
        rw [show Nat.pow 2 55 = 2 * Nat.pow 2 54 from rfl]
        ring
      _ ≤ magnitude * den := hclose
      _ < Nat.pow 2 (54 + droppedPlaces num den) * den := Nat.mul_lt_mul_of_pos_right hpow hden
      _ = den * Nat.pow 2 (droppedPlaces num den) * Nat.pow 2 54 := by
        rw [pow_two_add]
        ring
  have hkept : roundHalfEven num (den * Nat.pow 2 (droppedPlaces num den)) = q :=
    roundHalfEven_eq (Nat.mul_pos hden (pow_two_pos _)) (by omega) (by omega)
  rw [nearest, hkept, Nat.mul_comm]
  exact hq.symm

theorem pow_dvd_two_mul (hpos : magnitude ≠ 0) (hdvd : Nat.pow 2 (magnitude.log2 - 52) ∣ magnitude) :
    Nat.pow 2 ((2 * magnitude).log2 - 52) ∣ 2 * magnitude := by
  rw [Nat.log2_two_mul hpos]
  rcases Nat.lt_or_ge magnitude.log2 52 with hshort | hlong
  · rw [Nat.sub_eq_zero_of_le hshort]
    exact Nat.one_dvd _
  · rw [Nat.sub_add_comm hlong, Nat.add_comm, pow_two_add]
    exact Nat.mul_dvd_mul_left 2 hdvd

end Nearest

/-- The magnitude of 53 significant binary digits nearest to `x` units. -/
def nearestTo (x : ℚ) : Nat :=
  nearest x.num.natAbs x.den

section Units

variable {x y z : ℚ} {magnitude : Nat}

theorem natAbs_num (hx : 0 ≤ x) : (x.num.natAbs : ℚ) = x * x.den := by
  have habs : (x.num.natAbs : ℤ) = x.num := Int.natAbs_of_nonneg (Rat.num_nonneg.mpr hx)
  rw [Rat.mul_den_eq_num, ← habs]
  rfl

theorem nearestTo_mono (hx : 0 ≤ x) (h : x ≤ y) : nearestTo x ≤ nearestTo y := by
  apply nearest_mono x.den_pos y.den_pos
  rw [← Nat.cast_le (α := ℚ), Nat.cast_mul, Nat.cast_mul, natAbs_num hx, natAbs_num (hx.trans h)]
  calc
    x * x.den * y.den ≤ y * x.den * y.den := by gcongr
    _ = y * y.den * x.den := by ring

/-- Rounding depends on the value of a quotient only. -/
theorem nearest_eq_nearestTo {num den : Nat} (hden : 0 < den) : nearest num den = nearestTo (num / den) := by
  have hnonneg : (0 : ℚ) ≤ num / den := by positivity
  have hcross : (num / den : ℚ).num.natAbs * den = num * (num / den : ℚ).den := by
    rw [← Nat.cast_inj (R := ℚ), Nat.cast_mul, Nat.cast_mul, natAbs_num hnonneg]
    field_simp
  apply Nat.le_antisymm
  · exact nearest_mono hden (Rat.den_pos _) hcross.ge
  · exact nearest_mono (Rat.den_pos _) hden hcross.le

/-- What is rounded to one magnitude is an interval. -/
theorem nearestTo_eq_of_between (hx : 0 ≤ x) (hxy : x ≤ y) (hyz : y ≤ z) (hlow : nearestTo x = magnitude)
    (hhigh : nearestTo z = magnitude) : nearestTo y = magnitude := by
  have hle := nearestTo_mono hx hxy
  have hge := nearestTo_mono (hx.trans hxy) hyz
  omega

theorem nearestTo_eq_of_close (hx : 0 ≤ x) (hdvd : Nat.pow 2 (magnitude.log2 - 52) ∣ magnitude)
    (hle : x ≤ magnitude) (hclose : (magnitude - x) * 2 ^ 55 ≤ magnitude) : nearestTo x = magnitude := by
  have hunits : x.num.natAbs ≤ magnitude * x.den := by
    rw [← Nat.cast_le (α := ℚ), Nat.cast_mul, natAbs_num hx]
    gcongr
  apply nearest_eq_of_close x.den_pos hdvd hunits
  rw [← Nat.cast_le (α := ℚ), Nat.cast_mul, Nat.cast_sub hunits, Nat.cast_mul, natAbs_num hx, Nat.pow_eq,
    Nat.cast_pow, Nat.cast_ofNat]
  calc
    ((magnitude : ℚ) * x.den - x * x.den) * 2 ^ 55 = (magnitude - x) * 2 ^ 55 * x.den := by ring
    _ ≤ (magnitude : ℚ) * x.den := by gcongr

theorem nearestTo_natCast (hdvd : Nat.pow 2 (magnitude.log2 - 52) ∣ magnitude) :
    nearestTo magnitude = magnitude :=
  nearestTo_eq_of_close (Nat.cast_nonneg _) hdvd le_rfl (by simp)

theorem nearestTo_zero : nearestTo 0 = 0 := by
  have hcast : nearestTo ((0 : Nat) : ℚ) = 0 := nearestTo_natCast (dvd_zero _)
  rwa [Nat.cast_zero] at hcast

end Units

end TextTemplate.Number
