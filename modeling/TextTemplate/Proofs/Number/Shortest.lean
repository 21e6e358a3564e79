import TextTemplate.Number.Shortest
import TextTemplate.Proofs.Number.Rounding

namespace TextTemplate.Number

/-- `digits · 10 ^ exponent` in units. -/
def inUnits (digits : Nat) (exponent : Int) : ℚ :=
  digits * 10 ^ exponent * unitsPerOne

section Units

variable {digits digits' magnitude : Nat} {exponent exponent' : Int}

theorem unitsPerOne_cast_pos : (0 : ℚ) < unitsPerOne :=
  Nat.cast_pos.mpr unitsPerOne_pos

theorem decimalUnits_den_pos (digits : Nat) (exponent : Int) : 0 < (decimalUnits digits exponent).2 :=
  Nat.pow_pos (by decide)

theorem decimalUnits_ratio (digits : Nat) (exponent : Int) :
    ((decimalUnits digits exponent).1 : ℚ) / (decimalUnits digits exponent).2 = inUnits digits exponent := by
  have hsplit : exponent = (exponent.toNat : Int) - ((-exponent).toNat : Int) := by omega
  have hpow : (10 : ℚ) ^ exponent = 10 ^ exponent.toNat / 10 ^ (-exponent).toNat := by
    conv_lhs => rw [hsplit, zpow_sub₀ (by norm_num), zpow_natCast, zpow_natCast]
  rw [inUnits, hpow]
  simp only [decimalUnits, Nat.pow_eq, Nat.cast_mul, Nat.cast_pow, Nat.cast_ofNat]
  ring

theorem mul_num_le_iff (a b digits : Nat) (exponent : Int) :
    b * (decimalUnits digits exponent).1 ≤ a * (decimalUnits digits exponent).2 ↔
      (b : ℚ) * inUnits digits exponent ≤ a := by
  have hden : (0 : ℚ) < (decimalUnits digits exponent).2 := Nat.cast_pos.mpr (decimalUnits_den_pos digits exponent)
  rw [← decimalUnits_ratio, ← mul_div_assoc, div_le_iff₀ hden, ← Nat.cast_mul, ← Nat.cast_mul, Nat.cast_le]

theorem mul_den_lt_iff (a b digits : Nat) (exponent : Int) :
    a * (decimalUnits digits exponent).2 < b * (decimalUnits digits exponent).1 ↔
      (a : ℚ) < b * inUnits digits exponent := by
  rw [← not_le, mul_num_le_iff, not_le]

theorem inUnits_eq_mul (digits : Nat) (exponent : Int) : inUnits digits exponent = digits * inUnits 1 exponent := by
  simp only [inUnits]
  push_cast
  ring

theorem inUnits_zero (exponent : Int) : inUnits 0 exponent = 0 := by
  rw [inUnits_eq_mul, Nat.cast_zero, zero_mul]

theorem inUnits_one_pos (exponent : Int) : 0 < inUnits 1 exponent := by
  rw [inUnits, Nat.cast_one, one_mul]
  exact mul_pos (zpow_pos (by norm_num) exponent) unitsPerOne_cast_pos

theorem inUnits_nonneg (digits : Nat) (exponent : Int) : 0 ≤ inUnits digits exponent := by
  rw [inUnits_eq_mul]
  exact mul_nonneg (Nat.cast_nonneg digits) (inUnits_one_pos exponent).le

theorem inUnits_le_iff : inUnits digits exponent ≤ inUnits digits' exponent ↔ digits ≤ digits' := by
  rw [inUnits_eq_mul, inUnits_eq_mul digits', mul_le_mul_iff_left₀ (inUnits_one_pos exponent), Nat.cast_le]

theorem inUnits_add (digits digits' : Nat) (exponent : Int) :
    inUnits (digits + digits') exponent = inUnits digits exponent + inUnits digits' exponent := by
  simp only [inUnits]
  push_cast
  ring

/-- Zeros at the end are a matter of the place. -/
theorem inUnits_shift (digits : Nat) (exponent : Int) (k : Nat) :
    inUnits digits (exponent + k) = inUnits (digits * 10 ^ k) exponent := by
  rw [inUnits, inUnits, zpow_add₀ (by norm_num), zpow_natCast]
  push_cast
  ring

theorem inUnits_one_mono (h : exponent ≤ exponent') : inUnits 1 exponent ≤ inUnits 1 exponent' := by
  obtain ⟨k, rfl⟩ := Int.le.dest h
  rw [inUnits_shift, one_mul, inUnits_le_iff]
  exact Nat.one_le_pow _ _ (by decide)

theorem readsBack_iff : readsBack magnitude digits exponent = true ↔
    nearestTo (inUnits digits exponent) = magnitude := by
  rw [readsBack, ← decimalUnits_ratio, ← nearest_eq_nearestTo (decimalUnits_den_pos digits exponent)]
  exact beq_iff_eq

end Units

section Neighbours

variable {magnitude digits : Nat} {exponent : Int}

/-- The magnitude lies from the lower of its two neighbours on, and below the upper one. -/
theorem below_spec (magnitude : Nat) (exponent : Int) :
    inUnits (below magnitude exponent) exponent ≤ magnitude ∧
      magnitude < inUnits (below magnitude exponent + 1) exponent := by
  have hnum : 0 < (decimalUnits 1 exponent).1 := by
    have hlt := mul_den_lt_iff 0 1 1 exponent
    rw [Nat.zero_mul, Nat.one_mul, Nat.cast_zero, Nat.cast_one, one_mul] at hlt
    exact hlt.mpr (inUnits_one_pos exponent)
  have hlow : below magnitude exponent * (decimalUnits 1 exponent).1 ≤ magnitude * (decimalUnits 1 exponent).2 :=
    Nat.div_mul_le_self _ _
  have hhigh : magnitude * (decimalUnits 1 exponent).2 < (below magnitude exponent + 1) * (decimalUnits 1 exponent).1 :=
    (Nat.div_lt_iff_lt_mul hnum).mp (Nat.lt_succ_self _)
  rw [inUnits_eq_mul, inUnits_eq_mul (below magnitude exponent + 1)]
  exact ⟨(mul_num_le_iff _ _ _ _).mp hlow, (mul_den_lt_iff _ _ _ _).mp hhigh⟩

theorem nearerBelow_iff (magnitude digits : Nat) (exponent : Int) : nearerBelow magnitude digits exponent = true ↔
    2 * (magnitude : ℚ) < inUnits (2 * digits + 1) exponent := by
  have hlt := mul_den_lt_iff (2 * magnitude) 1 (2 * digits + 1) exponent
  rw [Nat.one_mul, Nat.cast_one, one_mul, Nat.cast_mul, Nat.cast_ofNat] at hlt
  rw [← hlt]
  unfold nearerBelow
  generalize decimalUnits (2 * digits + 1) exponent = units
  exact decide_eq_true_iff

/-- If a decimal of some place reads back, one of the neighbours in this place does. -/
theorem reads_neighbour (hself : nearestTo magnitude = magnitude)
    (h : nearestTo (inUnits digits exponent) = magnitude) :
    (digits ≤ below magnitude exponent ∧ nearestTo (inUnits (below magnitude exponent) exponent) = magnitude) ∨
      (below magnitude exponent + 1 ≤ digits ∧
        nearestTo (inUnits (below magnitude exponent + 1) exponent) = magnitude) := by
  obtain ⟨hlow, hhigh⟩ := below_spec magnitude exponent
  rcases Nat.lt_or_ge (below magnitude exponent) digits with habove | hbelow
  · refine .inr ⟨habove, ?_⟩
    exact nearestTo_eq_of_between (Nat.cast_nonneg _) hhigh.le (inUnits_le_iff.mpr habove) hself h
  · refine .inl ⟨hbelow, ?_⟩
    exact nearestTo_eq_of_between (inUnits_nonneg _ _) (inUnits_le_iff.mpr hbelow) hlow h hself

/-- A candidate is one of the neighbours; the lower one if that alone reads back, or if it is the nearer. -/
theorem pick_cases (low : Nat) (lowReads nextReads nearerLow : Bool) :
    (pick low lowReads nextReads nearerLow = none ∧ lowReads = false ∧ nextReads = false) ∨
    (pick low lowReads nextReads nearerLow = some low ∧ lowReads = true ∧ (nextReads = true → nearerLow = true)) ∨
    (pick low lowReads nextReads nearerLow = some (low + 1) ∧ nextReads = true ∧
      (lowReads = true → nearerLow = false)) := by
  cases lowReads <;> cases nextReads <;> cases nearerLow <;> simp [pick]

/-- Where no candidate stands, no decimal of that place reads back. -/
theorem not_reads_of_candidate?_eq_none (hself : nearestTo magnitude = magnitude)
    (h : candidate? magnitude exponent = none) (digits : Nat) : nearestTo (inUnits digits exponent) ≠ magnitude := by
  intro hreads
  have hpick := Option.map_eq_none_iff.mp h
  rcases pick_cases (below magnitude exponent) (readsBack magnitude (below magnitude exponent) exponent)
      (readsBack magnitude (below magnitude exponent + 1) exponent)
      (nearerBelow magnitude (below magnitude exponent) exponent) with ⟨-, hlow, hhigh⟩ | ⟨hsome, -⟩ | ⟨hsome, -⟩
  · rcases reads_neighbour hself hreads with ⟨-, hread⟩ | ⟨-, hread⟩
    · rw [readsBack_iff.mpr hread] at hlow
      cases hlow
    · rw [readsBack_iff.mpr hread] at hhigh
      cases hhigh
  · rw [hpick] at hsome
    cases hsome
  · rw [hpick] at hsome
    cases hsome

/-- A candidate reads back, and no other decimal of its place that reads back is nearer to the magnitude. -/
theorem candidate?_spec {found : Nat × Int} (hself : nearestTo magnitude = magnitude)
    (h : candidate? magnitude exponent = some found) :
    found.2 = exponent ∧ found.1 ≤ below magnitude exponent + 1 ∧
      nearestTo (inUnits found.1 exponent) = magnitude ∧
      ∀ digits, nearestTo (inUnits digits exponent) = magnitude →
        |inUnits found.1 exponent - magnitude| ≤ |inUnits digits exponent - magnitude| := by
  obtain ⟨hbelow, habove⟩ := below_spec magnitude exponent
  have hnearer := nearerBelow_iff magnitude (below magnitude exponent) exponent
  rw [two_mul (below magnitude exponent), Nat.add_assoc, inUnits_add] at hnearer
  obtain ⟨found', hpick, rfl⟩ := Option.map_eq_some_iff.mp h
  rcases pick_cases (below magnitude exponent) (readsBack magnitude (below magnitude exponent) exponent)
      (readsBack magnitude (below magnitude exponent + 1) exponent)
      (nearerBelow magnitude (below magnitude exponent) exponent) with
    ⟨hnone, -⟩ | ⟨hlow, hreads, hnear⟩ | ⟨hnext, hreads, hnear⟩
  · rw [hpick] at hnone
    cases hnone
  · rw [hpick] at hlow
    obtain rfl := Option.some.inj hlow
    refine ⟨rfl, Nat.le_succ _, readsBack_iff.mp hreads, ?_⟩
    intro digits hdigits
    rw [abs_of_nonpos (sub_nonpos.mpr hbelow)]
    rcases reads_neighbour hself hdigits with ⟨hle, -⟩ | ⟨hge, hboth⟩
    · have hunits : inUnits digits exponent ≤ inUnits (below magnitude exponent) exponent := inUnits_le_iff.mpr hle
      rw [abs_of_nonpos (sub_nonpos.mpr (hunits.trans hbelow))]
      linarith
    · have hunits : inUnits (below magnitude exponent + 1) exponent ≤ inUnits digits exponent := inUnits_le_iff.mpr hge
      have hmiddle := hnearer.mp (hnear (readsBack_iff.mpr hboth))
      rw [abs_of_nonneg (sub_nonneg.mpr (habove.le.trans hunits))]
      linarith
  · rw [hpick] at hnext
    obtain rfl := Option.some.inj hnext
    refine ⟨rfl, le_rfl, readsBack_iff.mp hreads, ?_⟩
    intro digits hdigits
    rw [abs_of_nonneg (sub_nonneg.mpr habove.le)]
    rcases reads_neighbour hself hdigits with ⟨hle, hboth⟩ | ⟨hge, -⟩
    · have hunits : inUnits digits exponent ≤ inUnits (below magnitude exponent) exponent := inUnits_le_iff.mpr hle
      have hmiddle := hnearer.not.mp (Bool.eq_false_iff.mp (hnear (readsBack_iff.mpr hboth)))
      rw [abs_of_nonpos (sub_nonpos.mpr (hunits.trans hbelow))]
      linarith
    · have hunits : inUnits (below magnitude exponent + 1) exponent ≤ inUnits digits exponent := inUnits_le_iff.mpr hge
      rw [abs_of_nonneg (sub_nonneg.mpr (habove.le.trans hunits))]
      linarith

end Neighbours

section Search

variable {magnitude : Nat}

/-- In every binary place, the finest decimal place of the search is finer than a number can tell, a decimal of it stays
small, and above the leading place no decimal is small enough. -/
theorem places_suffice {log : Nat} (hlog : log ≤ limit.log2) :
    let leading := ((log : Int) - 1073) * 1233 / 4096 + 1
    let finest := decimalUnits 1 (leading - 19)
    let next := decimalUnits 1 (leading + 1)
    Nat.pow 2 55 * finest.1 ≤ Nat.pow 2 log * finest.2 ∧
      Nat.pow 2 (log + 1) * finest.2 < 2 * Nat.pow 10 19 * finest.1 ∧ Nat.pow 2 (log + 2) * next.2 < 1 * next.1 := by
  have hall : ((List.range (limit.log2 + 1)).all fun log =>
      let leading := ((log : Int) - 1073) * 1233 / 4096 + 1
      let finest := decimalUnits 1 (leading - 19)
      let next := decimalUnits 1 (leading + 1)
      (Nat.pow 2 55 * finest.1).ble (Nat.pow 2 log * finest.2) &&
        (Nat.pow 2 (log + 1) * finest.2).blt (2 * Nat.pow 10 19 * finest.1) &&
        (Nat.pow 2 (log + 2) * next.2).blt (1 * next.1)) = true := by decide +kernel
  have hone := List.all_eq_true.mp hall log (List.mem_range.mpr (Nat.lt_add_one_of_le hlog))
  simpa only [Bool.and_eq_true, Nat.ble_eq, Nat.blt_eq, and_assoc] using hone

theorem leadingPlace_spec (hpos : magnitude ≠ 0) (hlimit : magnitude < limit) :
    2 ^ 55 * inUnits 1 (leadingPlace magnitude - 19) ≤ magnitude ∧
      magnitude < 2 * 10 ^ 19 * inUnits 1 (leadingPlace magnitude - 19) ∧
      2 * (magnitude : ℚ) < inUnits 1 (leadingPlace magnitude + 1) := by
  obtain ⟨hfine, hsmall, hnext⟩ := places_suffice (log2_mono hlimit.le)
  have hlow : (2 : ℚ) ^ magnitude.log2 ≤ magnitude := by exact_mod_cast Nat.log2_self_le hpos
  have hhigh : (magnitude : ℚ) < 2 ^ (magnitude.log2 + 1) := by exact_mod_cast Nat.lt_log2_self
  have hfine := (mul_num_le_iff _ _ 1 (leadingPlace magnitude - 19)).mp hfine
  have hsmall := (mul_den_lt_iff _ _ 1 (leadingPlace magnitude - 19)).mp hsmall
  have hnext := (mul_den_lt_iff _ _ 1 (leadingPlace magnitude + 1)).mp hnext
  simp only [Nat.pow_eq, Nat.cast_mul, Nat.cast_pow, Nat.cast_ofNat, Nat.cast_one, one_mul] at hfine hsmall hnext
  refine ⟨hfine.trans hlow, hhigh.trans hsmall, ?_⟩
  calc
    2 * (magnitude : ℚ) < 2 * 2 ^ (magnitude.log2 + 1) := by linarith
    _ = 2 ^ (magnitude.log2 + 2) := by ring
    _ < inUnits 1 (leadingPlace magnitude + 1) := hnext

/-- The finest place always has a candidate. -/
theorem candidate?_finest_ne_none (hstorable : Storable magnitude) (hpos : magnitude ≠ 0) :
    candidate? magnitude (leadingPlace magnitude - 19) ≠ none := by
  obtain ⟨hfine, -, -⟩ := leadingPlace_spec hpos hstorable.2
  obtain ⟨hbelow, habove⟩ := below_spec magnitude (leadingPlace magnitude - 19)
  have hself := nearestTo_natCast hstorable.1
  intro hnone
  apply not_reads_of_candidate?_eq_none hself hnone (below magnitude (leadingPlace magnitude - 19))
  apply nearestTo_eq_of_close (inUnits_nonneg _ _) hstorable.1 hbelow
  rw [inUnits_add] at habove
  linarith

theorem mem_places {exponent : Int} : exponent ∈ places magnitude ↔
    leadingPlace magnitude - 19 ≤ exponent ∧ exponent ≤ leadingPlace magnitude := by
  simp only [places, List.mem_map, List.mem_range]
  constructor
  · rintro ⟨i, hi, rfl⟩
    omega
  · rintro ⟨hlow, hhigh⟩
    exact ⟨(leadingPlace magnitude - exponent).toNat, by omega, by omega⟩

theorem pairwise_places (magnitude : Nat) : (places magnitude).Pairwise fun e e' => e' < e := by
  rw [places, List.pairwise_map]
  exact List.pairwise_lt_range.imp fun h => by omega

/-- The search ends in the coarsest of its places that has a candidate. -/
theorem shortestDigits_found (hstorable : Storable magnitude) (hpos : magnitude ≠ 0) :
    ∃ exponent, leadingPlace magnitude - 19 ≤ exponent ∧
      candidate? magnitude exponent = some (shortestDigits magnitude) ∧
      ∀ coarser, exponent < coarser → coarser ≤ leadingPlace magnitude → candidate? magnitude coarser = none := by
  rcases Option.eq_none_or_eq_some ((places magnitude).findSome? (candidate? magnitude)) with hnone | ⟨found, hfound⟩
  · have hfinest : leadingPlace magnitude - 19 ∈ places magnitude := mem_places.mpr (by omega)
    exact absurd (List.findSome?_eq_none_iff.mp hnone _ hfinest) (candidate?_finest_ne_none hstorable hpos)
  · obtain ⟨before, exponent, behind, hsplit, hcandidate, hbefore⟩ := List.findSome?_eq_some_iff.mp hfound
    have hshortest : shortestDigits magnitude = found := by rw [shortestDigits, hfound, Option.getD_some]
    have hmem : exponent ∈ places magnitude := by simp [hsplit]
    have hpairwise := pairwise_places magnitude
    rw [hsplit, List.pairwise_append, List.pairwise_cons] at hpairwise
    refine ⟨exponent, (mem_places.mp hmem).1, by rw [hshortest, hcandidate], ?_⟩
    intro coarser hcoarser hleading
    have hlow := (mem_places.mp hmem).1
    have hin : coarser ∈ before ++ exponent :: behind := by
      rw [← hsplit]
      exact mem_places.mpr (by omega)
    rcases List.mem_append.mp hin with hearlier | hlater
    · exact hbefore coarser hearlier
    · rcases List.mem_cons.mp hlater with rfl | hlater
      · omega
      · have hfiner := hpairwise.2.1.1 coarser hlater
        omega

/-- The decimal found for a magnitude: it reads back, no decimal of a coarser place does, and none of its own place is
nearer. -/
structure Found (magnitude digits : Nat) (exponent : Int) : Prop where
  reads : nearestTo (inUnits digits exponent) = magnitude
  coarsest : ∀ digits' coarser, exponent < coarser → nearestTo (inUnits digits' coarser) ≠ magnitude
  nearest : ∀ digits', nearestTo (inUnits digits' exponent) = magnitude →
    |inUnits digits exponent - magnitude| ≤ |inUnits digits' exponent - magnitude|
  small : digits ≤ 2 * 10 ^ 19

/-- Above the leading place, all decimals but zero are too large. -/
theorem not_reads_of_leadingPlace_lt (hstorable : Storable magnitude) (hpos : magnitude ≠ 0) {exponent : Int}
    (h : leadingPlace magnitude < exponent) (digits : Nat) : nearestTo (inUnits digits exponent) ≠ magnitude := by
  by_cases hzero : digits = 0
  · rw [hzero, inUnits_zero, nearestTo_zero]
    exact hpos.symm
  · obtain ⟨-, -, hnext⟩ := leadingPlace_spec hpos hstorable.2
    have hdouble : nearestTo ((2 * magnitude : Nat) : ℚ) = 2 * magnitude :=
      nearestTo_natCast (pow_dvd_two_mul hpos hstorable.1)
    have hunits : ((2 * magnitude : Nat) : ℚ) ≤ inUnits digits exponent := by
      rw [Nat.cast_mul, Nat.cast_ofNat]
      calc
        2 * (magnitude : ℚ) ≤ inUnits 1 (leadingPlace magnitude + 1) := hnext.le
        _ ≤ inUnits 1 exponent := inUnits_one_mono h
        _ ≤ inUnits digits exponent := inUnits_le_iff.mpr (Nat.one_le_iff_ne_zero.mpr hzero)
    have hle := nearestTo_mono (Nat.cast_nonneg _) hunits
    omega

theorem found_shortestDigits (hstorable : Storable magnitude) (hpos : magnitude ≠ 0) :
    Found magnitude (shortestDigits magnitude).1 (shortestDigits magnitude).2 := by
  have hself := nearestTo_natCast hstorable.1
  obtain ⟨exponent, hfinest, hcandidate, hcoarser⟩ := shortestDigits_found hstorable hpos
  obtain ⟨hexponent, hbelow, hreads, hnearest⟩ := candidate?_spec hself hcandidate
  rw [hexponent]
  refine ⟨hreads, ?_, hnearest, ?_⟩
  · intro digits' coarser hlt
    rcases Int.lt_or_le (leadingPlace magnitude) coarser with habove | hwithin
    · exact not_reads_of_leadingPlace_lt hstorable hpos habove digits'
    · exact not_reads_of_candidate?_eq_none hself (hcoarser coarser hlt hwithin) digits'
  · have hlow : (below magnitude exponent : ℚ) * inUnits 1 exponent < 2 * 10 ^ 19 * inUnits 1 exponent := by
      rw [← inUnits_eq_mul]
      calc
        inUnits (below magnitude exponent) exponent ≤ magnitude := (below_spec magnitude exponent).1
        _ < 2 * 10 ^ 19 * inUnits 1 (leadingPlace magnitude - 19) := (leadingPlace_spec hpos hstorable.2).2.1
        _ ≤ 2 * 10 ^ 19 * inUnits 1 exponent := by
          gcongr
          exact inUnits_one_mono hfinest
    have hdigits : below magnitude exponent < 2 * 10 ^ 19 := by
      exact_mod_cast lt_of_mul_lt_mul_right hlow (inUnits_one_pos exponent).le
    omega

end Search

end TextTemplate.Number
