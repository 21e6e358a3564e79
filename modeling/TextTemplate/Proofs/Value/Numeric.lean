import TextTemplate.Proofs.Number.Nearest
import TextTemplate.Proofs.Number.Numeral
import TextTemplate.Proofs.Number.Printed
import TextTemplate.Value.Basic

namespace TextTemplate

open Text (isBlank trim)

namespace Decimal

open Value (isNumeralChar)

variable {cs : List Char} {d : Decimal} {c : Char}

theorem isNumeralChar_of_isDigit (h : c.isDigit = true) : isNumeralChar c = true := by
  simp [isNumeralChar, h]

theorem SpellsSign.isNumeralChar {sign : List Char} {negative : Bool} (h : SpellsSign sign negative) :
    ∀ c ∈ sign, isNumeralChar c = true := by
  cases h <;> simp [Value.isNumeralChar]

theorem SpellsDigits.isNumeralChar {digits whole fraction : List Char} (h : SpellsDigits digits whole fraction) :
    ∀ c ∈ digits, isNumeralChar c = true := by
  cases h with
  | whole _ hds => exact fun c hc => isNumeralChar_of_isDigit (hds c hc)
  | parted _ hds hfs =>
    intro c hc
    rcases List.mem_append.mp hc with hc | hc
    · exact isNumeralChar_of_isDigit (hds c hc)
    · rcases List.mem_cons.mp hc with rfl | hc
      · rfl
      · exact isNumeralChar_of_isDigit (hfs c hc)
  | fraction _ hfs =>
    intro c hc
    rcases List.mem_cons.mp hc with rfl | hc
    · rfl
    · exact isNumeralChar_of_isDigit (hfs c hc)

theorem SpellsPower.isNumeralChar {power : List Char} {e : Int} (h : SpellsPower power e) :
    ∀ c ∈ power, isNumeralChar c = true := by
  cases h with
  | absent => exact fun c hc => absurd hc List.not_mem_nil
  | marked hmark hsign _ hds =>
    intro c hc
    rcases List.mem_cons.mp hc with rfl | hc
    · rcases hmark with rfl | rfl <;> rfl
    · rcases List.mem_append.mp hc with hc | hc
      · exact hsign.isNumeralChar c hc
      · exact isNumeralChar_of_isDigit (hds c hc)

theorem Spells.isNumeralChar (h : Spells cs d) : ∀ c ∈ cs, isNumeralChar c = true := by
  obtain ⟨hsign, hdigits, hpower⟩ := h
  intro c hc
  rcases List.mem_append.mp hc with hc | hc
  · exact hsign.isNumeralChar c hc
  · rcases List.mem_append.mp hc with hc | hc
    · exact hdigits.isNumeralChar c hc
    · exact hpower.isNumeralChar c hc

theorem Spells.ne_nil (h : Spells cs d) : cs ≠ [] := by
  obtain ⟨hsign, hdigits, hpower⟩ := h
  cases hdigits with
  | whole hne _ | parted hne _ _ => simp [hne]
  | fraction _ _ => simp

end Decimal

namespace Value

theorem isBlank_eq_false_of_isNumeralChar {c : Char} (h : isNumeralChar c = true) : isBlank c = false := by
  simp only [isNumeralChar, Bool.or_eq_true, beq_iff_eq] at h
  rcases h with ((((hdigit | rfl) | rfl) | rfl) | rfl) | rfl
  · exact Text.isBlank_eq_false_of_isDigit hdigit
  all_goals rfl

/-- No word stands for a finite number. -/
theorem filter_ofWord? (negative : Bool) (word : List Char) :
    (Number.ofWord? negative word).filter Number.isFinite = none := by
  unfold Number.ofWord?
  split
  · rfl
  · split <;> rfl

/-- Only numerals count, since words stand for nothing finite. -/
theorem readNumber?_eq (s : String) :
    readNumber? s = ((Decimal.read? (trim s.toList)).map Number.ofDecimal).filter Number.isFinite := by
  rw [readNumber?]
  cases hread : Decimal.read? (trim s.toList) with
  | some d =>
    have hspells := Decimal.read?_eq_some_iff.mp hread
    have hchars : ((trim s.toList).isEmpty || !(trim s.toList).all isNumeralChar) = false := by
      rw [List.isEmpty_eq_false_iff.mpr hspells.ne_nil, List.all_eq_true.mpr hspells.isNumeralChar]
      rfl
    rw [hchars, if_neg Bool.false_ne_true, Number.read?, hread]
    rfl
  | none =>
    rw [Option.map_none, Option.filter_none]
    split
    · rfl
    · rw [Number.read?, hread]
      exact filter_ofWord? _ _

theorem readNumber?_eq_some_iff {s : String} {n : Number} : readNumber? s = some n ↔
    ∃ d, Decimal.Spells (trim s.toList) d ∧ Number.ofDecimal d = n ∧ n.isFinite = true := by
  simp only [readNumber?_eq, Option.filter_eq_some_iff, Option.map_eq_some_iff, Decimal.read?_eq_some_iff]
  constructor
  · rintro ⟨⟨d, hspells, hvalue⟩, hfinite⟩
    exact ⟨d, hspells, hvalue, hfinite⟩
  · rintro ⟨d, hspells, hvalue, hfinite⟩
    exact ⟨⟨d, hspells, hvalue⟩, hfinite⟩

theorem isFinite_of_readNumber? {text : String} {x : Number} (h : readNumber? text = some x) : x.isFinite = true := by
  obtain ⟨d, -, -, hfinite⟩ := readNumber?_eq_some_iff.mp h
  exact hfinite

/-- A numeral with white space around it, and a finite number to which it is correctly rounded. -/
def WritesNumber (s : String) (n : Number) : Prop :=
  ∃ front numeral back d, s.toList = front ++ numeral ++ back ∧
    (∀ c ∈ front, isBlank c = true) ∧ (∀ c ∈ back, isBlank c = true) ∧
    Decimal.Spells numeral d ∧ Number.RoundsTo d.toRat n ∧ n.isFinite = true

theorem readNumber?_eq_some_iff_writesNumber {s : String} {n : Number} : readNumber? s = some n ↔ WritesNumber s n := by
  rw [readNumber?_eq_some_iff]
  constructor
  · rintro ⟨d, hspells, hvalue, hfinite⟩
    obtain ⟨front, back, hs, hfront, hback⟩ := Text.exists_eq_trim s.toList
    exact ⟨front, trim s.toList, back, d, hs, hfront, hback, hspells, Number.roundsTo_iff.mpr hvalue, hfinite⟩
  · rintro ⟨front, numeral, back, d, hs, hfront, hback, hspells, hrounds, hfinite⟩
    have hplain : ∀ c ∈ numeral, isBlank c = false :=
      fun c hc => isBlank_eq_false_of_isNumeralChar (hspells.isNumeralChar c hc)
    have htrim : trim s.toList = numeral := by
      rw [hs]
      exact Text.trim_append hfront hback (fun c hc => hplain c (List.mem_of_mem_head? hc))
        (fun c hc => hplain c (List.mem_of_mem_getLast? hc))
    rw [htrim]
    exact ⟨d, hspells, Number.roundsTo_iff.mp hrounds, hfinite⟩

/-- What a decimal is written as is read as the number to which it is rounded, whatever white space stands around it. -/
theorem readNumber?_decimal {d : Decimal} (hfinite : (Number.ofDecimal d).isFinite = true) (front back : List Char)
    (hfront : ∀ c ∈ front, isBlank c = true) (hback : ∀ c ∈ back, isBlank c = true) :
    readNumber? (String.ofList (front ++ d.text ++ back)) = some (Number.ofDecimal d) := by
  apply readNumber?_eq_some_iff_writesNumber.mpr
  refine ⟨front, d.text, back, d.writtenOut, String.toList_ofList, hfront, hback, ?_, ?_, hfinite⟩
  · exact Decimal.read?_eq_some_iff.mp (Decimal.read?_text d)
  · exact Number.roundsTo_iff.mpr (Number.ofDecimal_writtenOut d)

/-- The numeric strings are the numerals whose correctly rounded value is finite, with any white space around them,
and this value is their number. All others count as zero in arithmetic. -/
theorem numeric_string_iff (s : String) :
    (∀ n, (string s).asNumber? = some n ↔ WritesNumber s n) ∧
    (string s).asNumber? ≠ some .nan ∧ (∀ negative, (string s).asNumber? ≠ some (.infinite negative)) ∧
    ((¬ ∃ n, WritesNumber s n) → (string s).arithmetic = Number.zero) := by
  have hnumber (n : Number) : (string s).asNumber? = some n ↔ WritesNumber s n := readNumber?_eq_some_iff_writesNumber
  refine ⟨hnumber, ?_, ?_, ?_⟩
  · intro h
    cases isFinite_of_readNumber? h
  · intro negative h
    cases isFinite_of_readNumber? h
  · intro hnone
    have hread : (string s).asNumber? = none := by
      rw [Option.eq_none_iff_forall_ne_some]
      exact fun n h => hnone ⟨n, (hnumber n).mp h⟩
    rw [arithmetic, hread]
    rfl

end Value

end TextTemplate
