import Mathlib.Tactic.Ring
import TextTemplate.Decimal

namespace TextTemplate.Decimal

variable {c : Char} {n width places : Nat}

theorem isDigit_of_mem_natText (h : c ∈ natText n) : c.isDigit = true :=
  Nat.isDigit_of_mem_toDigits (by decide) (by decide) h

theorem natText_ne_nil (n : Nat) : natText n ≠ [] :=
  Nat.toDigits_ne_nil

theorem ofDigitChars_natText (n : Nat) : Nat.ofDigitChars 10 (natText n) 0 = n :=
  Nat.ofDigitChars_ten_toDigits

theorem natText_of_lt (h : n < 10) : natText n = [n.digitChar] :=
  Nat.toDigits_of_lt_base h

theorem natText_of_le (h : 10 ≤ n) : natText n = natText (n / 10) ++ [(n % 10).digitChar] :=
  Nat.toDigits_of_base_le (by decide) h

/-- Only zero begins with a zero. -/
theorem natText_eq_of_head? (h : (natText n).head? = some '0') : natText n = ['0'] := by
  induction n using Nat.strong_induction_on with
  | _ n ih =>
    by_cases hsmall : n < 10
    · rw [natText_of_lt hsmall] at h ⊢
      rw [Option.some.inj h]
    · have hlarge : 10 ≤ n := Nat.le_of_not_lt hsmall
      have hfirst : (natText (n / 10)).head? = some '0' := by
        obtain ⟨d, rest, hrest⟩ := List.exists_cons_of_ne_nil (natText_ne_nil (n / 10))
        rw [natText_of_le hlarge, hrest] at h
        rwa [hrest]
      have hvalue := ofDigitChars_natText (n / 10)
      rw [ih (n / 10) (by omega) hfirst] at hvalue
      have hzero : Nat.ofDigitChars 10 ['0'] 0 = 0 := rfl
      omega

theorem isDigit_of_mem_zeroPadded (h : c ∈ zeroPadded width n) : c.isDigit = true := by
  rcases List.mem_append.mp h with hzero | hdigit
  · rw [List.eq_of_mem_replicate hzero]
    rfl
  · exact isDigit_of_mem_natText hdigit

theorem length_zeroPadded (hwidth : 0 < width) (h : n < 10 ^ width) : (zeroPadded width n).length = width := by
  have hlength : (natText n).length ≤ width := (Nat.length_toDigits_le_iff (by decide) hwidth).mpr h
  rw [zeroPadded, List.length_append, List.length_replicate]
  omega

theorem ofDigitChars_zeroPadded (width n : Nat) : Nat.ofDigitChars 10 (zeroPadded width n) 0 = n := by
  rw [zeroPadded, Nat.ofDigitChars_append, Nat.ofDigitChars_replicate_zero, Nat.mul_zero, ofDigitChars_natText]

theorem zeroPadded_one (n : Nat) : zeroPadded 1 n = natText n := by
  have hpos := List.length_pos_iff.mpr (natText_ne_nil n)
  have hnone : 1 - (natText n).length = 0 := by omega
  rw [zeroPadded, hnone, List.replicate_zero, List.nil_append]

theorem zeroPadded_succ (hwidth : 0 < width) (n : Nat) :
    zeroPadded (width + 1) n = zeroPadded width (n / 10) ++ [(n % 10).digitChar] := by
  by_cases hsmall : n < 10
  · have hzero : n / 10 = 0 := by omega
    have hdigits : natText 0 = ['0'] := rfl
    have hlast : n % 10 = n := by omega
    have hwidth' : width = width - 1 + 1 := by omega
    rw [zeroPadded, zeroPadded, natText_of_lt hsmall, hzero, hdigits, hlast, List.length_singleton,
      List.length_singleton, ← List.replicate_succ', ← hwidth', Nat.add_sub_cancel]
  · rw [zeroPadded, zeroPadded, natText_of_le (Nat.le_of_not_lt hsmall), List.length_append, List.length_singleton,
      Nat.add_sub_add_right, List.append_assoc]

theorem zeroPadded_split (hplaces : 0 < places) (n : Nat) :
    zeroPadded (places + 1) n = natText (n / 10 ^ places) ++ zeroPadded places (n % 10 ^ places) := by
  induction places, hplaces using Nat.le_induction generalizing n with
  | base =>
    have hlast : n % 10 < 10 := Nat.mod_lt n (by decide)
    rw [zeroPadded_succ (by decide), zeroPadded_one, Nat.pow_one, zeroPadded_one, natText_of_lt hlast]
  | succ places hplaces ih =>
    have hhigh : n / 10 / 10 ^ places = n / 10 ^ (places + 1) := by
      rw [Nat.div_div_eq_div_mul, Nat.pow_succ, Nat.mul_comm]
    have hmiddle : n / 10 % 10 ^ places = n % 10 ^ (places + 1) / 10 := by
      rw [Nat.pow_succ, Nat.mul_comm, Nat.mod_mul_right_div_self]
    have hlast : n % 10 ^ (places + 1) % 10 = n % 10 :=
      Nat.mod_mod_of_dvd n (Dvd.intro_left (10 ^ places) (Nat.pow_succ 10 places).symm)
    rw [zeroPadded_succ (by omega), ih, List.append_assoc, hhigh, hmiddle, ← hlast, ← zeroPadded_succ (by omega)]

/-- The digits on both sides of the point. -/
theorem fixedText_eq (hplaces : 0 < places) (n : Nat) :
    fixedText n places = natText (n / 10 ^ places) ++ '.' :: zeroPadded places (n % 10 ^ places) := by
  have hlength := length_zeroPadded hplaces (Nat.mod_lt n (Nat.pow_pos (by decide)))
  rw [fixedText, if_neg (by omega), zeroPadded_split hplaces]
  dsimp only
  rw [List.length_append, hlength, Nat.add_sub_cancel, List.take_left, List.drop_left]

/-- An optional minus, digits, a point and exactly two digits. -/
def TwoDecimals (cs : List Char) : Prop :=
  ∃ negative whole fraction, cs = signText negative ++ whole ++ '.' :: fraction ∧
    whole ≠ [] ∧ fraction.length = 2 ∧ ∀ c ∈ whole ++ fraction, c.isDigit = true

/-- Two decimals that are worth so many hundredths. A minus stands in front only of what is below zero, and no
superfluous zeros stand in front of the point. -/
def WritesHundredths (cs : List Char) (n : Int) : Prop :=
  ∃ whole fraction, cs = signText (decide (n < 0)) ++ whole ++ '.' :: fraction ∧
    whole ≠ [] ∧ (whole.head? = some '0' → whole = ['0']) ∧ fraction.length = 2 ∧
    (∀ c ∈ whole ++ fraction, c.isDigit = true) ∧ Nat.ofDigitChars 10 (whole ++ fraction) 0 = n.natAbs

theorem isDigit_of_mem_fixedText {n : Nat} (h : c ∈ natText (n / 10 ^ places) ++ zeroPadded places (n % 10 ^ places)) :
    c.isDigit = true :=
  (List.mem_append.mp h).elim isDigit_of_mem_natText isDigit_of_mem_zeroPadded

theorem length_fraction (hplaces : 0 < places) (n : Nat) : (zeroPadded places (n % 10 ^ places)).length = places :=
  length_zeroPadded hplaces (Nat.mod_lt n (Nat.pow_pos (by decide)))

theorem writesHundredths_fixedText (n : Int) :
    WritesHundredths (signText (decide (n < 0)) ++ fixedText n.natAbs 2) n := by
  refine ⟨natText (n.natAbs / 10 ^ 2), zeroPadded 2 (n.natAbs % 10 ^ 2), ?_, natText_ne_nil _, natText_eq_of_head?,
    length_fraction (by decide) _, fun c => isDigit_of_mem_fixedText, ?_⟩
  · rw [fixedText_eq (by decide), List.append_assoc]
  · rw [← zeroPadded_split (by decide), ofDigitChars_zeroPadded]

/-- In front of the point stands no other. -/
theorem dropWhile_whole {negative : Bool} {whole rest : List Char} (h : ∀ c ∈ whole, c.isDigit = true) :
    (signText negative ++ whole ++ rest).dropWhile (· != '.') = rest.dropWhile (· != '.') := by
  apply List.dropWhile_append_of_pos
  intro c hc
  have hpoint : c ≠ '.' := by
    rintro rfl
    rcases List.mem_append.mp hc with hsign | hdigit
    · cases negative <;> simp [signText] at hsign
    · exact absurd (h '.' hdigit) (by decide)
  exact bne_iff_ne.mpr hpoint

theorem twoDecimals_iff {negative : Bool} : TwoDecimals (signText negative ++ fixedText n places) ↔ places = 2 := by
  constructor
  · rintro ⟨negative', whole, fraction, heq, -, hlength, hdigits⟩
    have hpart := congrArg (List.dropWhile (· != '.')) heq
    rw [dropWhile_whole fun c hc => hdigits c (List.mem_append_left _ hc),
      List.dropWhile_cons_of_neg (by decide)] at hpart
    rcases Nat.eq_zero_or_pos places with rfl | hplaces
    · have hnone := @dropWhile_whole negative (natText n) [] fun c => isDigit_of_mem_natText
      rw [List.append_nil] at hnone
      rw [fixedText, if_pos rfl, hnone] at hpart
      cases hpart
    · rw [fixedText_eq hplaces, ← List.append_assoc, dropWhile_whole fun c => isDigit_of_mem_natText,
        List.dropWhile_cons_of_neg (by decide)] at hpart
      rw [← (List.cons.inj hpart).2, length_fraction hplaces] at hlength
      exact hlength
  · rintro rfl
    refine ⟨negative, natText (n / 10 ^ 2), zeroPadded 2 (n % 10 ^ 2), ?_, natText_ne_nil _,
      length_fraction (by decide) n, fun c => isDigit_of_mem_fixedText⟩
    rw [fixedText_eq (by decide), List.append_assoc]

end TextTemplate.Decimal
