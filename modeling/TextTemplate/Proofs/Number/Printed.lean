import Mathlib.Data.List.TakeWhile
import TextTemplate.Proofs.Decimal
import TextTemplate.Proofs.Number.ReadBack
import TextTemplate.Proofs.Text.Trim

namespace TextTemplate

namespace Decimal

variable {negative : Bool} {whole fraction rest : List Char} {c : Char}

theorem readSign_signText (h : c.isDigit = true) : readSign (signText negative ++ c :: rest) = (negative, c :: rest) := by
  cases negative with
  | true => rfl
  | false =>
    change readSign (c :: rest) = (false, c :: rest)
    unfold readSign
    split
    case h_1 heq =>
      rw [(List.cons.inj heq).1] at h
      cases h
    case h_2 heq =>
      rw [(List.cons.inj heq).1] at h
      cases h
    case h_3 => rfl

theorem readFraction_point (h : ∀ c ∈ fraction, c.isDigit = true) : readFraction ('.' :: fraction) = (fraction, []) := by
  rw [readFraction, List.takeWhile_eq_self_iff.mpr h, List.dropWhile_eq_nil_iff.mpr h]

/-- Digits, and behind them what is read as a fraction and nothing more. -/
theorem read?_signed (hne : whole ≠ []) (hwhole : ∀ c ∈ whole, c.isDigit = true)
    (hbehind : ∀ c ∈ rest.head?, c.isDigit = false) (hfraction : readFraction rest = (fraction, [])) :
    read? (signText negative ++ (whole ++ rest)) =
      some ⟨negative, Nat.ofDigitChars 10 (whole ++ fraction) 0, -fraction.length⟩ := by
  have hsign : readSign (signText negative ++ (whole ++ rest)) = (negative, whole ++ rest) := by
    obtain ⟨c, more, rfl⟩ := List.exists_cons_of_ne_nil hne
    exact readSign_signText (hwhole c List.mem_cons_self)
  obtain ⟨htake, hdrop⟩ := Text.run_append hwhole hbehind
  have hsome : (whole.isEmpty && fraction.isEmpty) = false := by
    rw [List.isEmpty_eq_false_iff.mpr hne, Bool.false_and]
  rw [read?, hsign]
  dsimp only
  rw [hdrop, hfraction, htake]
  dsimp only
  rw [hsome, if_neg Bool.false_ne_true, readExponent?, Option.map_some, zero_sub]

/-- The same number without a power of ten that is only zeros in front of the point. -/
def writtenOut (d : Decimal) : Decimal :=
  if 0 ≤ d.exponent then ⟨d.negative, d.digits * Nat.pow 10 d.exponent.toNat, 0⟩ else d

/-- The text of a decimal writes it out. -/
theorem read?_text (d : Decimal) : read? d.text = some d.writtenOut := by
  rw [text, writtenOut]
  split
  case isTrue hwhole =>
    have hread := @read?_signed d.negative _ [] [] (natText_ne_nil (d.digits * Nat.pow 10 d.exponent.toNat))
      (fun c => isDigit_of_mem_natText) (by simp) rfl
    rwa [List.append_nil, ofDigitChars_natText] at hread
  case isFalse hwhole =>
    generalize hplaces : (-d.exponent).toNat = places
    have hpos : 0 < places := by omega
    have hfraction := readFraction_point fun c => @isDigit_of_mem_zeroPadded c (d.digits % 10 ^ places) places
    have hpoint : ∀ c ∈ ('.' :: zeroPadded places (d.digits % 10 ^ places)).head?, c.isDigit = false := by
      intro c hc
      cases hc
      rfl
    have hexponent : -(places : Int) = d.exponent := by omega
    rw [fixedText_eq hpos, read?_signed (natText_ne_nil _) (fun c => isDigit_of_mem_natText) hpoint hfraction,
      ← zeroPadded_split hpos, ofDigitChars_zeroPadded, length_fraction hpos, hexponent]

theorem exists_natText_eq_cons (n : Nat) :
    ∃ c rest, natText n = c :: rest ∧ c.isDigit = true ∧ ∀ e ∈ rest, e.isDigit = true := by
  obtain ⟨c, rest, heq⟩ := List.exists_cons_of_ne_nil (natText_ne_nil n)
  have hdigits : ∀ e ∈ c :: rest, e.isDigit = true := by
    rw [← heq]
    exact fun e => isDigit_of_mem_natText
  exact ⟨c, rest, heq, List.forall_mem_cons.mp hdigits⟩

/-- The text of a decimal is a sign, a digit, and digits and a point behind it. -/
theorem exists_text_eq_cons (d : Decimal) : ∃ c rest, d.text = signText d.negative ++ c :: rest ∧ c.isDigit = true ∧
    ∀ e ∈ rest, (e.isDigit || e == '.') = true := by
  have hnumeral {e : Char} (he : e.isDigit = true) : (e.isDigit || e == '.') = true := by rw [he, Bool.true_or]
  rw [text]
  split
  case isTrue hpoint =>
    obtain ⟨c, rest, heq, hc, hrest⟩ := exists_natText_eq_cons (d.digits * Nat.pow 10 d.exponent.toNat)
    exact ⟨c, rest, by rw [heq], hc, fun e he => hnumeral (hrest e he)⟩
  case isFalse hpoint =>
    obtain ⟨c, rest, heq, hc, hrest⟩ := exists_natText_eq_cons (d.digits / 10 ^ (-d.exponent).toNat)
    rw [fixedText_eq (by omega), heq, List.cons_append]
    refine ⟨c, _, rfl, hc, ?_⟩
    intro e he
    rcases List.mem_append.mp he with hfront | hbehind
    · exact hnumeral (hrest e hfront)
    · rcases List.mem_cons.mp hbehind with rfl | hfraction
      · rfl
      · exact hnumeral (isDigit_of_mem_zeroPadded hfraction)

end Decimal

namespace Number

open Decimal

/-- Rounding makes no difference between zeros and a power of ten. -/
theorem ofDecimal_writtenOut (d : Decimal) : ofDecimal d.writtenOut = ofDecimal d := by
  rw [writtenOut]
  split
  case isFalse => rfl
  case isTrue hwhole =>
    by_cases hdigits : d.digits = 0
    · rw [ofDecimal, if_pos (by rw [hdigits, Nat.zero_mul]), ofDecimal, if_pos hdigits]
    · have hzeros : d.digits * Nat.pow 10 d.exponent.toNat ≠ 0 :=
        Nat.mul_ne_zero hdigits (Nat.pos_iff_ne_zero.mp (Nat.pow_pos (by decide)))
      have hplaces : (-d.exponent).toNat = 0 := by omega
      have hone : Nat.pow 10 0 = 1 := rfl
      rw [ofDecimal_eq_ofRatio hzeros, ofDecimal_eq_ofRatio hdigits, decimalUnits, decimalUnits, hplaces]
      dsimp only
      rw [Int.neg_zero, Int.toNat_zero, hone, Nat.mul_one]

/-- A finite number is printed as a decimal that is rounded to it. -/
theorem exists_text_eq {n : Number} (h : n.isFinite = true) :
    ∃ d : Decimal, n.text.toList = d.text ∧ ofDecimal d = n := by
  cases n with
  | finite units storable =>
    exact ⟨decimalOf units, String.toList_ofList, (decimalOf_isShortest units storable).reads⟩
  | infinite negative => cases h
  | nan => cases h

end Number

end TextTemplate
